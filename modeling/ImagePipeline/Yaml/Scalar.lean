import ImagePipeline.Text.Digits
import ImagePipeline.Text.Pieces

/-! What an unquoted scalar means: nothing, a truth value, a number or a text. -/
namespace ImagePipeline.Yaml.Scalar

def isNull (s : String) : Bool := s == "null" || s == "Null" || s == "NULL" || s == "~"

def bool? (s : String) : Option Bool :=
  if s == "true" || s == "True" || s == "TRUE" then some true
  else if s == "false" || s == "False" || s == "FALSE" then some false
  else none

/-- Two or more digits that start with a zero, behind an optional sign, are a text. -/
def hasLeadingZero (s : List Char) : Bool :=
  let digits := match s with
    | '-' :: cs | '+' :: cs => cs
    | cs => cs
  match digits with
  | '0' :: rest => !rest.isEmpty && rest.all Char.isDigit
  | _ => false

/-- A number with its base written as `0x`, `0o` or `0b`, or in decimal digits. -/
def magnitude? (s : List Char) : Option Nat :=
  match s with
  | '0' :: 'x' :: digits => Text.natural? 16 digits
  | '0' :: 'o' :: digits => Text.natural? 8 digits
  | '0' :: 'b' :: digits => Text.natural? 2 digits
  | digits => Text.decimal? digits

/-- An integer with an optional sign. -/
def int? (s : List Char) : Option Int :=
  if hasLeadingZero s then none
  else match s with
    | '+' :: cs => (magnitude? cs).map Int.ofNat
    | '-' :: cs => (magnitude? cs).map fun n => -Int.ofNat n
    | cs => (magnitude? cs).map Int.ofNat

/-- An integer of a type that has no negative numbers: not even `-0` is one. -/
def unsigned? (s : List Char) : Option Nat :=
  match s with
  | '-' :: _ => none
  | _ => (int? s).map Int.toNat

/-- The digits and the power of ten of a decimal number without a sign: digits
with at most one point among, before or behind them, and an exponent. -/
def decimalParts? (s : List Char) : Option (List Char × Int) :=
  let whole := s.takeWhile Char.isDigit
  let rest := s.dropWhile Char.isDigit
  let (fraction, rest) := match rest with
    | '.' :: cs => (cs.takeWhile Char.isDigit, cs.dropWhile Char.isDigit)
    | cs => ([], cs)
  let digits := whole ++ fraction
  if digits.isEmpty then none
  else match rest with
    | [] => some (digits, -fraction.length)
    | e :: cs =>
      if e == 'e' || e == 'E' then
        let exponent := match cs with
          | '+' :: ds => (Text.decimal? ds).map Int.ofNat
          | '-' :: ds => (Text.decimal? ds).map fun n => -Int.ofNat n
          | ds => (Text.decimal? ds).map Int.ofNat
        exponent.map fun x => (digits, x - fraction.length)
      else none

/-- The least number that a 64-bit floating point number is too small for, when
the nearest one is taken. -/
def floatLimit : Nat := Nat.pow 2 1024 - Nat.pow 2 970

/-- The number is nearer to a finite 64-bit floating point number than to infinity. -/
def isFinite (digits : List Char) (exponent : Int) : Bool :=
  let significant := digits.dropWhile (· == '0')
  let size : Int := significant.length + exponent
  if significant.isEmpty || size ≤ 308 then true
  else if 310 < size then false
  else
    let value := (Text.decimal? significant).getD 0
    if 0 ≤ exponent then value * Nat.pow 10 exponent.toNat < floatLimit
    else value < floatLimit * Nat.pow 10 (-exponent).toNat

def isFloat (s : List Char) : Bool :=
  let unsigned := match s with
    | '+' :: cs => if cs.head? == some '-' || cs.head? == some '+' then [] else cs
    | cs => cs
  [".inf", ".Inf", ".INF"].contains (String.ofList unsigned) ||
  ["-.inf", "-.Inf", "-.INF", ".nan", ".NaN", ".NAN"].contains (String.ofList s) ||
  (let positive := match unsigned with
    | '-' :: cs => cs
    | cs => cs
   (decimalParts? positive).any fun (digits, exponent) => isFinite digits exponent)

/-- An integer that fits into 128 bits, signed or unsigned. -/
def isInteger (s : List Char) : Bool :=
  (int? s).any fun n =>
    decide (-Int.ofNat (Nat.pow 2 127) ≤ n) && decide (n < Int.ofNat (Nat.pow 2 128))

/-- The text reads back as itself when it is not quoted. -/
def isPlainText (s : String) : Bool :=
  !(s.isEmpty || isNull s || (bool? s).isSome || isInteger s.toList ||
    hasLeadingZero s.toList || isFloat s.toList)

end ImagePipeline.Yaml.Scalar
