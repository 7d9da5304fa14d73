import ImagePipeline.Shell.Format
import ImagePipeline.Shell.Program
import ImagePipeline.Shell.State

/-! What the commands of the shell itself print and decide. -/
namespace ImagePipeline.Shell

/-- The text that `echo` writes for characters with escapes, and whether it goes on. -/
def echoText : List Char → List Char × Bool
  | [] => ([], true)
  | '\\' :: 'c' :: _ => ([], false)
  | '\\' :: c :: cs =>
    let (rest, goesOn) := echoText cs
    match escape? c with
    | some e => (e :: rest, goesOn)
    | none => ('\\' :: c :: rest, goesOn)
  | c :: cs =>
    let (rest, goesOn) := echoText cs
    (c :: rest, goesOn)

def echo (args : List String) : String :=
  let (args, ending) := match args with
    | "-n" :: rest => (rest, "")
    | args => (args, "\n")
  let (text, goesOn) := echoText (" ".intercalate args).toList
  String.ofList text ++ if goesOn then ending else ""

/-! ### Conditions -/

def comparison? (operator : String) : Option (Int → Int → Bool) :=
  match operator with
  | "-eq" => some fun a b => a == b
  | "-ne" => some fun a b => a != b
  | "-lt" => some fun a b => a < b
  | "-le" => some fun a b => a ≤ b
  | "-gt" => some fun a b => a > b
  | "-ge" => some fun a b => a ≥ b
  | _ => none

def numberOf (s : String) : Except String Int :=
  match integer? s with
  | some n => .ok n
  | none => .error ("Illegal number: " ++ s)

def unexpected (s : String) : String := s ++ ": unexpected operator"

/-- Whether a condition holds, or what is wrong with it. -/
def condition (t : FileTree) (here : Path) : List String → Except String Bool
  | [] => .ok false
  | [a] => .ok !a.isEmpty
  | ["!", a] => .ok a.isEmpty
  | [operator, a] =>
    let path := here.join ⟨a⟩
    match operator with
    | "-n" => .ok !a.isEmpty
    | "-z" => .ok a.isEmpty
    | "-e" => .ok (!a.isEmpty && t.pathExists path)
    | "-f" => .ok (!a.isEmpty && t.isFile path)
    | "-d" => .ok (!a.isEmpty && t.isDirectory path)
    | "-s" => .ok ((t.read path).toOption.any fun content => 0 < content.size)
    | "-x" => .ok (t.isDirectory path || (executable? t path).toOption.isSome)
    | _ => .error (unexpected operator)
  | [a, "=", b] => .ok (a == b)
  | [a, "!=", b] => .ok (a != b)
  | [a, operator, b] =>
    match comparison? operator with
    | some holds => return holds (← numberOf a) (← numberOf b)
    | none =>
      if a == "!" then return !(← condition t here [operator, b])
      else .error (unexpected a)
  | a :: rest =>
    if a == "!" then return !(← condition t here rest) else .error (unexpected a)

/-! ### Numbers and durations in arguments -/

/-- A number in place of an exit code. -/
def exitCode? (args : List String) (usual : Nat) : Option Nat :=
  match args with
  | [] => some usual
  | s :: _ => (Text.decimal? s.toList).map (· % 256)

/-- Seconds, minutes, hours or days with decimals. -/
def pause? (s : String) : Option Nat := do
  let cs := s.toList
  let digits := cs.takeWhile Char.isDigit
  let rest := cs.drop digits.length
  let fraction := if rest.head? == some '.' then rest.tail.takeWhile Char.isDigit else []
  let rest := if rest.head? == some '.' then rest.drop (fraction.length + 1) else rest
  let whole ← Text.decimal? (digits ++ (fraction ++ List.replicate 9 '0').take 9)
  let unit ← match rest with
    | [] | ['s'] => some 1
    | ['m'] => some 60
    | ['h'] => some 3600
    | ['d'] => some 86400
    | _ => none
  return whole * unit

def pauses? : List String → Option Nat
  | [] => some 0
  | s :: rest => do return (← pause? s) + (← pauses? rest)

/-! ### Programs -/

/-- How a program ends. -/
inductive Ending where
  | exited (code : Nat)
  | killed
  deriving DecidableEq, Repr

/-- The exit code that a shell sees. -/
def Ending.code : Ending → Nat
  | exited code => code
  | killed => 137

/-- Programs that are always there. -/
def standardProgram? (name : String) (args : List String) : Option (Run Ending) :=
  if ["/bin/true", "/usr/bin/true"].contains name then some (return .exited 0)
  else if ["/bin/false", "/usr/bin/false"].contains name then some (return .exited 1)
  else if ["/bin/sleep", "/usr/bin/sleep"].contains name then
    some <| match args, pauses? args with
      | _ :: _, some nanos => do
        passTime nanos
        return .exited 0
      | _, _ => return .exited 1
  else none

end ImagePipeline.Shell
