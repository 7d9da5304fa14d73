/-! Options and arguments of a command, and how a list of words is read as them. -/
namespace ImagePipeline.CommandLine

/-- What an option does to what has been read so far. A value that does not fit has no
result. -/
inductive Effect (α : Type) where
  | flag (apply : α → α)
  /-- One value, once. -/
  | single (apply : String → α → Option α)
  /-- One value each time. -/
  | repeated (apply : String → α → Option α)
  /-- One value or more each time. -/
  | several (apply : String → α → Option α)

structure Switch (α : Type) where
  long : String
  short : Option Char := none
  effect : Effect α

/-- Why reading stops before the end. -/
inductive Halt where
  | misuse
  | help
  | version
  deriving DecidableEq, Repr

/-- What a command takes. -/
structure Form (α : Type) where
  switches : List (Switch α)
  /-- What an argument without an option does, if one can be taken. -/
  argument : String → α → Option α := fun _ _ => none
  /-- Options that stop the reading. -/
  halts : List (String × Char × Halt) := [("help", 'h', .help)]

/-- Where reading stands: what has been read, the options that cannot come again, and
the option that takes the next word, with whether it has one already. -/
structure Progress (α : Type) where
  value : α
  used : List String := []
  pending : Option ((String → α → Option α) × Bool × Bool) := none

namespace Progress

variable {α : Type}

/-- No option lacks a value. -/
def isComplete (p : Progress α) : Bool :=
  match p.pending with
  | some (_, _, satisfied) => satisfied
  | none => true

/-- Applies a value, which must fit. -/
def apply (p : Progress α) (f : String → α → Option α) (word : String) :
    Except Halt (Progress α) :=
  match f word p.value with
  | some value => .ok { p with value }
  | none => .error .misuse

def markUsed (p : Progress α) (name : String) : Except Halt (Progress α) :=
  if p.used.contains name then .error .misuse else .ok { p with used := name :: p.used }

/-- Starts an option, with the value attached to it, if any. -/
def start (p : Progress α) (s : Switch α) (attached : Option String) :
    Except Halt (Progress α) :=
  if !p.isComplete then .error .misuse
  else
    let p := { p with pending := none }
    match s.effect, attached with
    | .flag f, none => do
      let p ← p.markUsed s.long
      return { p with value := f p.value }
    | .flag _, some _ => .error .misuse
    | .single f, some word => do (← p.markUsed s.long).apply f word
    | .single f, none => do return { ← p.markUsed s.long with pending := some (f, false, false) }
    | .repeated f, some word | .several f, some word => p.apply f word
    | .repeated f, none => .ok { p with pending := some (f, false, false) }
    | .several f, none => .ok { p with pending := some (f, true, false) }

end Progress

/-- How a word is written. -/
inductive WordKind where
  | separator
  | long (name : String) (attached : Option String)
  | short (letters : List Char)
  | plain
  deriving DecidableEq, Repr

def wordKind (word : String) : WordKind :=
  match word.toList with
  | ['-', '-'] => .separator
  | '-' :: '-' :: cs =>
    let name := cs.takeWhile (· != '=')
    .long (String.ofList name) ((cs.drop name.length).tail?.map String.ofList)
  | ['-'] => .plain
  | '-' :: letters => .short letters
  | _ => .plain

namespace Form

variable {α : Type}

def longSwitch (f : Form α) (p : Progress α) (name : String) (attached : Option String) :
    Except Halt (Progress α) :=
  match f.switches.find? fun s => s.long == name with
  | some s => p.start s attached
  | none =>
    match f.halts.find? fun (long, _) => long == name with
    | some (_, _, halt) => .error (if attached.isNone && p.isComplete then halt else .misuse)
    | none => .error .misuse

/-- Reads letters behind one dash. What follows a letter that takes a value is that. -/
def shortSwitches (f : Form α) (p : Progress α) : List Char → Except Halt (Progress α)
  | [] => .ok p
  | c :: cs =>
    match f.switches.find? fun s => s.short == some c with
    | none =>
      match f.halts.find? fun (_, short, _) => short == c with
      | some (_, _, halt) => .error (if p.isComplete then halt else .misuse)
      | none => .error .misuse
    | some s =>
      match s.effect, cs with
      | .flag _, _ => do f.shortSwitches (← p.start s none) cs
      | _, [] => p.start s none
      | _, '=' :: value => p.start s (some (String.ofList value))
      | _, value => p.start s (some (String.ofList value))

/-- Gives a word without dashes to the option that waits for one, or takes it as an
argument. -/
def plainWord (f : Form α) (p : Progress α) (word : String) : Except Halt (Progress α) :=
  match p.pending with
  | some (apply, several, _) => do
    let p ← p.apply apply word
    return { p with pending := if several then some (apply, true, true) else none }
  | none => p.apply f.argument word

def arguments (f : Form α) (p : Progress α) : List String → Except Halt (Progress α)
  | [] => .ok p
  | word :: words => do f.arguments (← p.apply f.argument word) words

/-- Reads words up to one for which `stopsAt` holds where an argument could stand. The
answer are the words from there on. -/
def read (f : Form α) (stopsAt : String → Bool) (p : Progress α) :
    List String → Except Halt (Progress α × List String)
  | [] => if p.isComplete then .ok (p, []) else .error .misuse
  | word :: words =>
    match wordKind word with
    | .separator => do
      if !p.isComplete then throw .misuse
      return (← f.arguments p words, [])
    | .long name attached => do f.read stopsAt (← f.longSwitch p name attached) words
    | .short letters => do f.read stopsAt (← f.shortSwitches p letters) words
    | .plain =>
      if p.pending.isNone && stopsAt word then .ok (p, word :: words)
      else do f.read stopsAt (← f.plainWord p word) words

end Form

end ImagePipeline.CommandLine
