import ImagePipeline.Text.Blank

/-! Words of the POSIX shell: their parts, and the fields that they expand to. -/
namespace ImagePipeline.Shell

inductive Parameter where
  | named (name : String)
  | position (n : Nat)
  /-- All arguments; in quotes each is a field of its own. -/
  | each
  /-- All arguments; in quotes they are one field. -/
  | joined
  | count
  | status
  | process
  deriving DecidableEq, Repr

inductive Segment where
  | literal (quoted : Bool) (s : String)
  | value (quoted : Bool) (p : Parameter)
  deriving DecidableEq, Repr

abbrev Word := List Segment

namespace Word

/-- The text of a word without any quoting or expansion. -/
def plainText? : Word → Option String
  | [.literal false s] => some s
  | _ => none

end Word

/-- What the parameters stand for. -/
structure Scope where
  /-- Of two values for a name the first counts. -/
  bindings : List (String × String) := []
  name : String := "sh"
  args : List String := []
  status : Nat := 0
  process : Nat := 1
  /-- The names whose values programs find. -/
  exported : List String := []
  /-- Whether the shell ends at a command that fails. -/
  stopsOnFailure : Bool := false

namespace Scope

def assign (s : Scope) (name value : String) : Scope :=
  { s with bindings := (name, value) :: s.bindings }

def get? (s : Scope) (name : String) : Option String := s.bindings.lookup name

def get (s : Scope) (name : String) : String := (s.get? name).getD ""

def share (s : Scope) (name : String) : Scope :=
  if s.exported.contains name then s else { s with exported := name :: s.exported }

def unset (s : Scope) (name : String) : Scope :=
  { s with
    bindings := s.bindings.filter fun b => b.1 != name
    exported := s.exported.filter (· != name) }

/-- The values that programs find. -/
def environment (s : Scope) : List (String × String) :=
  s.exported.filterMap fun name => (s.get? name).map fun value => (name, value)

/-- What a new shell starts with. -/
def ofEnvironment (environment : List (String × String)) (process : Nat) : Scope :=
  { bindings := environment, exported := environment.map Prod.fst, process }

/-- The value as one text. -/
def value (s : Scope) : Parameter → String
  | .named name => s.get name
  | .position 0 => s.name
  | .position (n + 1) => s.args.getD n ""
  | .each | .joined => " ".intercalate s.args
  | .count => toString s.args.length
  | .status => toString s.status
  | .process => toString s.process

end Scope

/-- Fields under way: those that are complete, the last one first, and the current one,
if any character or quote has started it. -/
structure Fields where
  complete : List String := []
  current : Option String := none

namespace Fields

def add (f : Fields) (text : String) : Fields :=
  { f with current := some (f.current.getD "" ++ text) }

/-- Ends the current field. -/
def close (f : Fields) : Fields :=
  match f.current with
  | some text => ⟨text :: f.complete, none⟩
  | none => f

def isSpace (c : Char) : Bool := c == ' ' || c == '\t' || c == '\n'

/-- Adds text whose blanks separate fields. -/
def addSplit (f : Fields) : List Char → Fields
  | [] => f
  | c :: cs => (if isSpace c then f.close else f.add (String.singleton c)).addSplit cs

/-- Adds texts with the end of a field between any two. -/
def addEach (f : Fields) (quoted : Bool) : List String → Fields
  | [] => f
  | [a] => if quoted then f.add a else f.addSplit a.toList
  | a :: rest => ((if quoted then f.add a else f.addSplit a.toList).close).addEach quoted rest

def addSegment (s : Scope) (f : Fields) : Segment → Fields
  | .literal _ text => f.add text
  | .value quoted .each => f.addEach quoted s.args
  | .value false .joined => f.addEach false s.args
  | .value true p => f.add (s.value p)
  | .value false p => f.addSplit (s.value p).toList

def toList (f : Fields) : List String := f.close.complete.reverse

end Fields

namespace Scope

/-- The fields of a word, of which there may be none. -/
def fields (s : Scope) (w : Word) : List String := (w.foldl (Fields.addSegment s) {}).toList

/-- The expanded word as one text. -/
def text (s : Scope) (w : Word) : String :=
  String.join <| w.map fun
    | .literal _ text => text
    | .value _ p => s.value p

end Scope

end ImagePipeline.Shell
