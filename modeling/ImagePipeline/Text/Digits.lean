/-! Numbers written in digits. -/
namespace ImagePipeline.Text

/-- The value of a digit in bases up to sixteen. -/
def digitValue? (c : Char) : Option Nat :=
  if '0' ≤ c ∧ c ≤ '9' then some (c.toNat - '0'.toNat)
  else if 'a' ≤ c ∧ c ≤ 'f' then some (c.toNat - 'a'.toNat + 10)
  else if 'A' ≤ c ∧ c ≤ 'F' then some (c.toNat - 'A'.toNat + 10)
  else none

def digitsValue? (base : Nat) (acc : Nat) : List Char → Option Nat
  | [] => some acc
  | c :: cs =>
    match digitValue? c with
    | some d => if d < base then digitsValue? base (acc * base + d) cs else none
    | none => none

/-- The number written by one or more digits of the base, without a sign. -/
def natural? (base : Nat) : List Char → Option Nat
  | [] => none
  | cs => digitsValue? base 0 cs

def decimal? (s : List Char) : Option Nat := natural? 10 s

def word64Bound : Nat := Nat.pow 2 64

/-- A number below `2 ^ 64`, which may have a plus sign. -/
def word64? (s : List Char) : Option Nat :=
  let digits := match s with
    | '+' :: digits => digits
    | digits => digits
  (decimal? digits).filter (· < word64Bound)

/-- Lower-case digits in the base, at least `width` of them. -/
def padded (base width n : Nat) : String :=
  let digits := Nat.toDigits base n
  String.ofList (List.replicate (width - digits.length) '0' ++ digits)

end ImagePipeline.Text
