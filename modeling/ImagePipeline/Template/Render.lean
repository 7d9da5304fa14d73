import ImagePipeline.Template.Context
import ImagePipeline.Template.Tree

/-! Rendering a template. -/
namespace ImagePipeline.Template

/-- A piece of a line of text. -/
inductive Piece where
  | literal (s : List Char)
  | action (inner : List Char)
  | unclosed
  deriving DecidableEq, Repr

/-- Cuts a line into text and actions. The flag tells whether an action has started;
`started` holds the current piece in reverse. -/
def pieces : Bool → List Char → List Char → List Piece
  | false, started, [] => [.literal started.reverse]
  | true, _, [] => [.unclosed]
  | false, started, '{' :: '{' :: rest => .literal started.reverse :: pieces true [] rest
  | true, started, '}' :: '}' :: rest => .action started.reverse :: pieces false [] rest
  | inAction, started, c :: rest => pieces inAction (c :: started) rest

/-- The value of an action: the current package for a dot, and else that of a name. -/
def actionValue (c : Context) (item : Option String) (n : Nat) (inner : List Char) :
    Except Fault (List Char) :=
  let action := actionText inner
  if action == ['.'] then
    match item with
    | some package => .ok package.toList
    | none => .error (.dotOutsideRange n)
  else
    match fieldName? action with
    | none => .error (.unsupported n (String.ofList action))
    | some name =>
      match c.value? (String.ofList name) with
      | some value => .ok value.toList
      | none => .error (.unknownVariable n (String.ofList name))

def pieceText (c : Context) (item : Option String) (n : Nat) : Piece → Except Fault (List Char)
  | .literal s => .ok s
  | .action inner => actionValue c item n inner
  | .unclosed => .error (.unclosedAction n)

/-- The text of pieces in order; the first piece without a text stops it. -/
def piecesText (c : Context) (item : Option String) (n : Nat) :
    List Piece → Except Fault (List Char)
  | [] => .ok []
  | p :: ps => do
    let front ← pieceText c item n p
    let rest ← piecesText c item n ps
    return front ++ rest

/-- Puts values into a line of text. -/
def substitute (c : Context) (item : Option String) (n : Nat) (line : List Char) :
    Except Fault (List Char) :=
  piecesText c item n (pieces false [] line)

def holds (c : Context) (n : Nat) : Guard → Except Fault Bool
  | .flag name negated =>
    match c.flag? name with
    | some on => .ok (on != negated)
    | none => .error (.unknownFlag n name)
  | .baseIn names => .ok (names.contains c.base.name)

/-- What each package gives, in order. -/
def forPackages (f : String → Except Fault (List (List Char))) :
    List String → Except Fault (List (List Char))
  | [] => .ok []
  | p :: ps => do
    let front ← f p
    let rest ← forPackages f ps
    return front ++ rest

mutual

/-- The lines that a node gives; `item` is the current package. -/
def Node.render (c : Context) (item : Option String) : Node → Except Fault (List (List Char))
  | .text n content => (substitute c item n content).map fun line => [line]
  | .branch n guard chosen otherwise =>
    match holds c n guard with
    | .error e => .error e
    | .ok true => renderNodes c item chosen
    | .ok false => renderNodes c item otherwise
  | .loop body => forPackages (fun package => renderNodes c (some package) body) c.packages

def renderNodes (c : Context) (item : Option String) : List Node → Except Fault (List (List Char))
  | [] => .ok []
  | n :: ns => do
    let front ← n.render c item
    let rest ← renderNodes c item ns
    return front ++ rest

end

/-- The rendered lines as a text, which ends with a line feed if the template does,
unless it is empty. -/
def assemble (template : List Char) (lines : List (List Char)) : List Char :=
  let out := Text.unlines lines
  if Text.endsWithLineFeed template && !out.isEmpty then out ++ ['\n'] else out

def renderChars (template : List Char) (c : Context) : Except Fault (List Char) := do
  let nodes ← parse template
  let lines ← renderNodes c none nodes
  return assemble template lines

def render (template : String) (c : Context) : Except Fault String :=
  (renderChars template.toList c).map String.ofList

end ImagePipeline.Template
