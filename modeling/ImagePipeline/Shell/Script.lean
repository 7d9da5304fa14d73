import ImagePipeline.Shell.Token

/-! Scripts: the tree that a shell reads from tokens. -/
namespace ImagePipeline.Shell

structure Redirect where
  descriptor : Nat
  kind : RedirectKind
  target : Word
  deriving DecidableEq, Repr

/-- A command with its assignments, words and redirections. -/
structure SimpleCommand where
  line : Nat
  assignments : List (String × Word) := []
  words : List Word := []
  redirects : List Redirect := []
  deriving DecidableEq, Repr

inductive Script where
  /-- Does nothing and succeeds. -/
  | done
  | command (c : SimpleCommand)
  | both (first second : Script)
  | andThen (first second : Script)
  | orElse (first second : Script)
  | negated (s : Script)
  | branch (condition chosen otherwise : Script)
  /-- Goes through the fields of some words, or through the arguments. -/
  | forEach (name : String) (items : Option (List Word)) (body : Script)
  /-- Repeats as long as the condition has this result. -/
  | loop (wanted : Bool) (condition body : Script)
  /-- In a shell of its own. -/
  | subshell (s : Script)
  /-- A compound command with its redirections. -/
  | redirected (line : Nat) (redirects : List Redirect) (s : Script)
  deriving Repr

/-- The name and the value of a word that assigns. -/
def assignment? : Word → Option (String × Word)
  | .literal false s :: rest =>
    let name := s.toList.takeWhile (· != '=')
    match s.toList.dropWhile (· != '=') with
    | _ :: value =>
      if name.head?.any isNameStart && name.all isNameChar then
        let value := String.ofList value
        some (String.ofList name, if value.isEmpty then rest else .literal false value :: rest)
      else none
    | [] => none
  | _ => none

/-- Words that mean something only where a command may start. -/
def keywords : List String :=
  ["if", "then", "elif", "else", "fi", "for", "in", "do", "done", "while", "until", "!",
    "\x7b", "\x7d"]

/-- The keyword that comes next. -/
def keyword? : List Token → Option String
  | .word _ w :: _ => w.plainText?.filter fun s => keywords.contains s
  | _ => none

def skipNewlines : List Token → List Token
  | .newline :: rest => skipNewlines rest
  | ts => ts

/-- Passes a keyword that must come next. -/
def expect? (keyword : String) (ts : List Token) : Option (List Token) :=
  if keyword? ts == some keyword then some ts.tail else none

/-- Reads the parts of a simple command up to a separator. -/
def readSimple : SimpleCommand → List Token → SimpleCommand × List Token
  | c, .word line w :: rest =>
    match if c.words.isEmpty then assignment? w else none with
    | some a => readSimple { c with assignments := c.assignments ++ [a] } rest
    | none =>
      let line := if c.words.isEmpty then line else c.line
      readSimple { c with line, words := c.words ++ [w] } rest
  | c, .redirect d kind :: .word _ target :: rest =>
    readSimple { c with redirects := c.redirects ++ [⟨d, kind, target⟩] } rest
  | c, rest => (c, rest)

/-- Keywords that end a list. -/
def endWords : List String := ["then", "elif", "else", "fi", "do", "done", "\x7d"]

/-- Nothing that belongs to a list follows. -/
def endsList (ts : List Token) : Bool :=
  ts.isEmpty || ts.head? == some .closing || (keyword? ts).any endWords.contains

/-- Reads the redirections behind a compound command. -/
def readRedirects (s : Script) (ts : List Token) : Script × List Token :=
  match ts with
  | .redirect _ _ :: .word line _ :: _ =>
    let (c, rest) := readSimple { line } ts
    if c.words.isEmpty && c.assignments.isEmpty then (.redirected line c.redirects s, rest)
    else (s, ts)
  | ts => (s, ts)

/-- Reads the words that a loop goes through. -/
def readItems : List Token → List Word × List Token
  | .word _ w :: rest =>
    let (items, rest) := readItems rest
    (w :: items, rest)
  | rest => ([], rest)

def skipSeparator : List Token → List Token
  | .semicolon :: rest => skipNewlines rest
  | ts => skipNewlines ts

mutual

/-- Reads commands up to a keyword that does not start one, or to the end. -/
def readList : Nat → List Token → Option (Script × List Token)
  | 0, _ => none
  | fuel + 1, ts => do
    let (first, rest) ← readChain fuel (skipNewlines ts)
    match rest with
    | .semicolon :: rest | .newline :: rest =>
      let rest := skipNewlines rest
      if endsList rest then return (first, rest)
      let (second, rest) ← readList fuel rest
      return (.both first second, rest)
    | rest => return (first, rest)

/-- Reads commands that depend on the result of those before. -/
def readChain : Nat → List Token → Option (Script × List Token)
  | 0, _ => none
  | fuel + 1, ts => do
    let (first, rest) ← readCommand fuel ts
    readLinks fuel first rest

def readLinks : Nat → Script → List Token → Option (Script × List Token)
  | 0, _, _ => none
  | fuel + 1, first, ts =>
    match ts with
    | .andThen :: rest => do
      let (second, rest) ← readCommand fuel (skipNewlines rest)
      readLinks fuel (.andThen first second) rest
    | .orElse :: rest => do
      let (second, rest) ← readCommand fuel (skipNewlines rest)
      readLinks fuel (.orElse first second) rest
    | rest => some (first, rest)

def readCommand : Nat → List Token → Option (Script × List Token)
  | 0, _ => none
  | fuel + 1, ts =>
    match keyword? ts with
    | some "!" => do
      let (s, rest) ← readCommand fuel ts.tail
      return (.negated s, rest)
    | some _ => readCompound fuel ts
    | none =>
      if ts.head? == some .opening then readCompound fuel ts
      else
        let (c, rest) := readSimple { line := 1 } ts
        if c.words.isEmpty && c.assignments.isEmpty && c.redirects.isEmpty then none
        else some (.command c, rest)

def readCompound : Nat → List Token → Option (Script × List Token)
  | 0, _ => none
  | fuel + 1, ts => do
    let (s, rest) ← match keyword? ts with
      | some "if" => readBranch fuel ts.tail
      | some "while" => readLoop fuel true ts.tail
      | some "until" => readLoop fuel false ts.tail
      | some "for" => readForEach fuel ts.tail
      | some "\x7b" => do
        let (s, rest) ← readList fuel ts.tail
        (expect? "\x7d" rest).map (s, ·)
      | some _ => none
      | none => do
        let (s, rest) ← readList fuel ts.tail
        if rest.head? == some .closing then some (.subshell s, rest.tail) else none
    return readRedirects s rest

/-- Reads a branch from behind its `if` or `elif`. -/
def readBranch : Nat → List Token → Option (Script × List Token)
  | 0, _ => none
  | fuel + 1, ts => do
    let (condition, rest) ← readList fuel ts
    let (chosen, rest) ← readList fuel (← expect? "then" rest)
    match keyword? rest with
    | some "elif" =>
      let (otherwise, rest) ← readBranch fuel rest.tail
      return (.branch condition chosen otherwise, rest)
    | some "else" =>
      let (otherwise, rest) ← readList fuel rest.tail
      return (.branch condition chosen otherwise, ← expect? "fi" rest)
    | _ => return (.branch condition chosen .done, ← expect? "fi" rest)

def readLoop : Nat → Bool → List Token → Option (Script × List Token)
  | 0, _, _ => none
  | fuel + 1, wanted, ts => do
    let (condition, rest) ← readList fuel ts
    let (body, rest) ← readList fuel (← expect? "do" rest)
    return (.loop wanted condition body, ← expect? "done" rest)

def readForEach : Nat → List Token → Option (Script × List Token)
  | 0, _ => none
  | fuel + 1, ts =>
    match ts with
    | .word _ w :: rest => do
      let name ← w.plainText?
      let rest := skipNewlines rest
      let (items, rest) :=
        if keyword? rest == some "in" then
          let (items, rest) := readItems rest.tail
          (some items, rest)
        else (none, rest)
      let (body, rest) ← readList fuel (← expect? "do" (skipSeparator rest))
      return (.forEach name items body, ← expect? "done" rest)
    | _ => none

end

namespace Script

/-- Reads a whole script; none if it is not one. -/
def ofText? (s : String) : Option Script := do
  let tokens := skipNewlines (← tokens? s)
  if tokens.isEmpty then return .done
  let (script, rest) ← readList (4 * tokens.length + 4) tokens
  if rest.isEmpty then some script else none

end Script

end ImagePipeline.Shell
