import ImagePipeline.Text.Digits

/-! Points in time and their RFC 3339 text, in UTC. -/
namespace ImagePipeline

/-- Seconds since the start of 1970 and nanoseconds within the second; a leap second
has a billion of these or more. -/
structure Timestamp where
  seconds : Int
  nanos : Nat
  deriving DecidableEq, Repr

structure Date where
  year : Int
  month : Nat
  day : Nat
  deriving DecidableEq, Repr

namespace Date

/-- Days from the start of 1970. Years start in March here, so that the leap day is
the last day of a year, and are counted in cycles of 400. -/
def toDays (d : Date) : Int :=
  let y := if d.month ≤ 2 then d.year - 1 else d.year
  let cycle := y / 400
  let yearOfCycle := y % 400
  let monthFromMarch : Int := (d.month + 9) % 12
  let dayOfYear := (153 * monthFromMarch + 2) / 5 + d.day - 1
  let dayOfCycle := yearOfCycle * 365 + yearOfCycle / 4 - yearOfCycle / 100 + dayOfYear
  cycle * 146097 + dayOfCycle - 719468

def ofDays (days : Int) : Date :=
  let z := days + 719468
  let cycle := z / 146097
  let dayOfCycle := z % 146097
  let yearOfCycle :=
    (dayOfCycle - dayOfCycle / 1460 + dayOfCycle / 36524 - dayOfCycle / 146096) / 365
  let dayOfYear := dayOfCycle - (365 * yearOfCycle + yearOfCycle / 4 - yearOfCycle / 100)
  let monthFromMarch := (5 * dayOfYear + 2) / 153
  let day := dayOfYear - (153 * monthFromMarch + 2) / 5 + 1
  let month := if monthFromMarch < 10 then monthFromMarch + 3 else monthFromMarch - 9
  let year := yearOfCycle + cycle * 400
  ⟨if month ≤ 2 then year + 1 else year, month.toNat, day.toNat⟩

def isLeapYear (y : Int) : Bool := y % 4 == 0 && (y % 100 != 0 || y % 400 == 0)

def daysInMonth (year : Int) (month : Nat) : Nat :=
  if month == 2 then (if isLeapYear year then 29 else 28)
  else if month == 4 || month == 6 || month == 9 || month == 11 then 30
  else 31

def isValid (d : Date) : Bool :=
  1 ≤ d.month && d.month ≤ 12 && 1 ≤ d.day && d.day ≤ daysInMonth d.year d.month

/-- Four digits, with a sign outside of the years that these can write. -/
def text (d : Date) : String :=
  let year :=
    if 0 ≤ d.year && d.year ≤ 9999 then Text.padded 10 4 d.year.toNat
    else (if d.year < 0 then "-" else "+") ++ Text.padded 10 4 d.year.natAbs
  year ++ "-" ++ Text.padded 10 2 d.month ++ "-" ++ Text.padded 10 2 d.day

end Date

namespace Timestamp

def nanosPerSecond : Nat := 1000000000

/-- The time in UTC without a fraction of a second; `fraction` goes behind it. -/
def textWith (fraction : String) (t : Timestamp) : String :=
  let secondOfDay := (t.seconds % 86400).toNat
  let second := secondOfDay % 60 + t.nanos / nanosPerSecond
  (Date.ofDays (t.seconds / 86400)).text ++ "T" ++ Text.padded 10 2 (secondOfDay / 3600) ++ ":" ++
    Text.padded 10 2 (secondOfDay / 60 % 60) ++ ":" ++ Text.padded 10 2 second ++ fraction ++ "Z"

/-- The time to the second. -/
def secondsText (t : Timestamp) : String := t.textWith ""

/-- The time with as many groups of three decimals as it needs. -/
def text (t : Timestamp) : String :=
  let nanos := t.nanos % nanosPerSecond
  t.textWith <|
    if nanos == 0 then ""
    else if nanos % 1000000 == 0 then "." ++ Text.padded 10 3 (nanos / 1000000)
    else if nanos % 1000 == 0 then "." ++ Text.padded 10 6 (nanos / 1000)
    else "." ++ Text.padded 10 9 nanos

def digits? (count : Nat) (s : List Char) : Option (Nat × List Char) :=
  let digits := s.take count
  if digits.length = count && digits.all Char.isDigit then
    (Text.decimal? digits).map fun n => (n, s.drop count)
  else none

def mark? (marks : List Char) : List Char → Option (List Char)
  | c :: cs => if marks.contains c then some cs else none
  | [] => none

/-- The nanoseconds of an optional fraction; digits behind the ninth are dropped. -/
def fraction? : List Char → Option (Nat × List Char)
  | '.' :: cs =>
    let digits := cs.takeWhile Char.isDigit
    let kept := (digits ++ List.replicate 9 '0').take 9
    if digits.isEmpty then none
    else (Text.decimal? kept).map fun n => (n, cs.drop digits.length)
  | cs => some (0, cs)

/-- The seconds by which local time is ahead of UTC. -/
def offset? : List Char → Option Int
  | ['Z'] | ['z'] => some 0
  | sign :: cs => do
    let (hours, cs) ← digits? 2 cs
    let (minutes, cs) ← digits? 2 (← mark? [':'] cs)
    let ahead : Int := hours * 3600 + minutes * 60
    if !cs.isEmpty || 59 < minutes || 23 < hours then none
    else if sign == '+' then some ahead
    else if sign == '-' then some (-ahead)
    else none
  | [] => none

/-- Reads RFC 3339 text. -/
def parse? (s : String) : Option Timestamp := do
  let (year, cs) ← digits? 4 s.toList
  let (month, cs) ← digits? 2 (← mark? ['-'] cs)
  let (day, cs) ← digits? 2 (← mark? ['-'] cs)
  let (hour, cs) ← digits? 2 (← mark? ['T', 't', ' '] cs)
  let (minute, cs) ← digits? 2 (← mark? [':'] cs)
  let (second, cs) ← digits? 2 (← mark? [':'] cs)
  let (nanos, cs) ← fraction? cs
  let ahead ← offset? cs
  let date : Date := ⟨year, month, day⟩
  if !date.isValid || 23 < hour || 59 < minute || 60 < second then none
  else
    let leap := second == 60
    let secondOfDay : Int := hour * 3600 + minute * 60 + (if leap then 59 else second)
    some ⟨date.toDays * 86400 + secondOfDay - ahead, if leap then nanos + nanosPerSecond else nanos⟩

end Timestamp

end ImagePipeline
