import ImagePipeline.Text.Digits

/-! Floating-point numbers with a fixed number of decimals. The digits are those of the
exact value; a half goes to the even neighbour. -/
namespace ImagePipeline.Decimal

/-- The quotient to the nearest integer, and of two as near the even one. -/
def roundedQuotient (a b : Nat) : Nat :=
  let q := a / b
  let twice := 2 * (a % b)
  if b < twice || (twice == b && q % 2 == 1) then q + 1 else q

/-- The magnitude `significand * 2 ^ (exponent - 1075)` of the finite number with these
bits. -/
structure Magnitude where
  significand : Nat
  exponent : Nat

/-- How many fractions there are: they have 52 bits. -/
def fractionCount : Nat := Nat.pow 2 52

def Magnitude.ofBits (bits : Nat) : Magnitude :=
  let fraction := bits % fractionCount
  let exponent := bits / fractionCount % 2048
  if exponent == 0 then ⟨fraction, 1⟩ else ⟨fractionCount + fraction, exponent⟩

/-- The magnitude as a number of the units `10 ^ -places`. -/
def Magnitude.units (m : Magnitude) (places : Nat) : Nat :=
  roundedQuotient (m.significand * Nat.pow 10 places * Nat.pow 2 m.exponent) (Nat.pow 2 1075)

def unitsText (places units : Nat) : String :=
  toString (units / Nat.pow 10 places) ++ "." ++ Text.padded 10 places (units % Nat.pow 10 places)

/-- The text of a number with the given number of decimals, at least one. -/
def fixed (places : Nat) (x : Float) : String :=
  if x.isNaN then "NaN"
  else
    let bits := x.toBits.toNat
    let sign := if bits / Nat.pow 2 63 == 1 then "-" else ""
    sign ++ (if x.isInf then "inf" else unitsText places ((Magnitude.ofBits bits).units places))

end ImagePipeline.Decimal
