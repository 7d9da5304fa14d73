import ImagePipeline.Decimal.Fixed

/-! Floating-point numbers in as few digits as are read back as the same number. Of all numbers
with so few digits the nearest is taken, and of two as near the even one. -/
namespace ImagePipeline.Decimal

namespace Magnitude

/-! Everything is counted in grains, which are so fine that both the numbers and the bounds between
them are whole. -/

/-- A grain is `10 ^ -1076`. -/
def grainPlaces : Nat := 1076

/-- Half of the way to the next number above. -/
def halfStep (m : Magnitude) : Nat := Nat.pow 5 grainPlaces * Nat.pow 2 m.exponent

def grains (m : Magnitude) : Nat := m.halfStep * (2 * m.significand)

/-- Half of the way to the next number below, which is nearer where the exponent changes. -/
def halfStepBelow (m : Magnitude) : Nat :=
  if m.significand = fractionCount ∧ 1 < m.exponent then m.halfStep / 2 else m.halfStep

/-- This is the number nearest to so many grains; of two as near it is the even one. -/
def Reads (m : Magnitude) (grains : Nat) : Prop :=
  m.grains + m.significand % 2 ≤ grains + m.halfStepBelow ∧
    grains + m.significand % 2 ≤ m.grains + m.halfStep

instance (m : Magnitude) (grains : Nat) : Decidable (m.Reads grains) :=
  inferInstanceAs (Decidable (_ ∧ _))

/-- The multiple of a unit that is read back, if there is one: the nearest, or else one of the two
around the number. -/
def multiple? (m : Magnitude) (unit : Nat) : Option Nat :=
  [roundedQuotient m.grains unit, m.grains / unit, m.grains / unit + 1].find? fun digits =>
    m.Reads (digits * unit)

/-- The digits of a number and the power of ten that they count, starting from a power and going
down as far as they are not read back. -/
def digitsFrom (m : Magnitude) : Nat → Nat × Nat
  | 0 => (m.grains, 0)
  | power + 1 =>
    match m.multiple? (Nat.pow 10 (power + 1)) with
    | some digits => (digits, power + 1)
    | none => m.digitsFrom power

/-- A power that is larger than every number. -/
def topPower : Nat := grainPlaces + 309

def shortest (m : Magnitude) : Nat × Nat := m.digitsFrom topPower

end Magnitude

/-- The text of digits that count a power of ten. It has an exponent if there would be more than
sixteen digits in front of the point or more than four zeros right behind it, and else at least one
decimal. -/
def scaledText (digits : List Char) (power : Int) : String :=
  let point := digits.length + power
  let zeros (n : Int) := List.replicate n.toNat '0'
  String.ofList <|
    if 0 ≤ power ∧ point ≤ 16 then digits ++ zeros power ++ ['.', '0']
    else if 0 < point ∧ point ≤ 16 then
      digits.take point.toNat ++ '.' :: digits.drop point.toNat
    else if -5 < point ∧ point ≤ 0 then '0' :: '.' :: zeros (-point) ++ digits
    else digits.take 1 ++ (if digits.length = 1 then [] else '.' :: digits.drop 1) ++
      'e' :: (toString (point - 1)).toList

def Magnitude.shortestText (m : Magnitude) : String :=
  if m.significand = 0 then "0.0"
  else
    let (digits, power) := m.shortest
    scaledText (Nat.toDigits 10 digits) (power - Magnitude.grainPlaces)

/-- The text of a finite number. -/
def shortest (x : Float) : String :=
  let bits := x.toBits.toNat
  let sign := if bits / Nat.pow 2 63 == 1 then "-" else ""
  sign ++ (Magnitude.ofBits bits).shortestText

end ImagePipeline.Decimal
