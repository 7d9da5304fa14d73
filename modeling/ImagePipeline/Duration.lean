import ImagePipeline.Text.Blank
import ImagePipeline.Text.Digits

/-! Lengths of time: how they are written in a configuration and how they are
shown. -/
namespace ImagePipeline

/-- A length of time in nanoseconds. -/
structure Duration where
  nanos : Nat
  deriving DecidableEq, Repr

namespace Duration

def nanosPerSecond : Nat := 1000000000

def ofSeconds (s : Nat) : Duration := ⟨s * nanosPerSecond⟩

def seconds (d : Duration) : Nat := d.nanos / nanosPerSecond

instance : Add Duration := ⟨fun d e => ⟨d.nanos + e.nanos⟩⟩

/-- The seconds and the rest are rounded before they are added. -/
def millis (d : Duration) : Float :=
  (d.seconds.toFloat + (d.nanos % nanosPerSecond).toFloat / nanosPerSecond.toFloat) * 1000

def unitSeconds? : Char → Option Nat
  | 's' => some 1
  | 'm' => some 60
  | 'h' => some 3600
  | _ => none

/-- Counts of seconds are below `2 ^ 64`. -/
def bounded? (n : Nat) : Option Nat := if n < Text.word64Bound then some n else none

/-- The sum of groups of digits and a unit, such as `1h30m`. `digits` are those read
of the group that has started. -/
def groups? (total : Nat) (digits : List Char) : List Char → Option Nat
  | [] => if digits.isEmpty then some total else none
  | c :: cs =>
    if c.isDigit then groups? total (digits ++ [c]) cs
    else do
      let value ← bounded? (← Text.decimal? digits)
      let unit ← unitSeconds? c
      let total ← bounded? (total + (← bounded? (value * unit)))
      groups? total [] cs

/-- Reads `90`, `30s`, `10m`, `1h` or `1h30m`; none if a number, a product or a sum
reaches the bound on seconds. -/
def parse? (s : String) : Option Duration :=
  let text := Text.trim s.toList
  if text.isEmpty then none
  else (Text.word64? text <|> groups? 0 [] text).map ofSeconds

/-- The fraction `part / 10 ^ places` behind its point, without final zeros. -/
def fractionText (part places : Nat) : String :=
  let digits := (Text.padded 10 places part).toList
  let kept := (digits.reverse.dropWhile (· == '0')).reverse
  if kept.isEmpty then "" else "." ++ String.ofList kept

/-- The length in its largest fitting unit, with every digit that is needed. -/
def display (d : Duration) : String :=
  let inUnit (places : Nat) (unit : String) : String :=
    let grain := Nat.pow 10 places
    toString (d.nanos / grain) ++ fractionText (d.nanos % grain) places ++ unit
  if nanosPerSecond ≤ d.nanos then inUnit 9 "s"
  else if 1000000 ≤ d.nanos then inUnit 6 "ms"
  else if 1000 ≤ d.nanos then inUnit 3 "µs"
  else inUnit 0 "ns"

end Duration

end ImagePipeline
