import ImagePipeline.Template.Action
import ImagePipeline.Text.Lines

/-! The blocks of a template. -/
namespace ImagePipeline.Template

inductive Node where
  | text (line : Nat) (content : List Char)
  | branch (line : Nat) (guard : Guard) (chosen otherwise : List Node)
  | loop (body : List Node)
  deriving Repr

/-- What opened a block. -/
inductive Opener where
  | guard (g : Guard)
  | packages
  deriving DecidableEq, Repr

/-- A block that has not been closed: the line that opened it, and the nodes read so
far before and behind its `else`. -/
structure OpenBlock where
  opener : Opener
  line : Nat
  chosen : List Node
  otherwise : Option (List Node)

namespace OpenBlock

def start (opener : Opener) (line : Nat) : OpenBlock := ⟨opener, line, [], none⟩

def push (b : OpenBlock) (n : Node) : OpenBlock :=
  match b.otherwise with
  | some nodes => { b with otherwise := some (nodes ++ [n]) }
  | none => { b with chosen := b.chosen ++ [n] }

/-- An `else` divides an `if` block once. -/
def divide? (b : OpenBlock) : Option OpenBlock :=
  match b.opener, b.otherwise with
  | .guard _, none => some { b with otherwise := some [] }
  | _, _ => none

def close (b : OpenBlock) : Node :=
  match b.opener with
  | .guard g => .branch b.line g b.chosen (b.otherwise.getD [])
  | .packages => .loop b.chosen

end OpenBlock

/-- The nodes outside of all blocks and the open blocks, innermost first. -/
structure Outline where
  root : List Node := []
  blocks : List OpenBlock := []

namespace Outline

def push (o : Outline) (n : Node) : Outline :=
  match o.blocks with
  | b :: blocks => { o with blocks := b.push n :: blocks }
  | [] => { o with root := o.root ++ [n] }

def enter (o : Outline) (opener : Opener) (line : Nat) : Outline :=
  { o with blocks := .start opener line :: o.blocks }

/-- Adds the line with number `n`, whose kind is known. -/
def add (o : Outline) (n : Nat) (content : List Char) : LineKind → Except Fault Outline
  | .text => .ok (o.push (.text n content))
  | .opening g => .ok (o.enter (.guard g) n)
  | .repeating => .ok (o.enter .packages n)
  | .otherwise =>
    match o.blocks with
    | b :: blocks =>
      match b.divide? with
      | some divided => .ok { o with blocks := divided :: blocks }
      | none => .error (.strayElse n)
    | [] => .error (.strayElse n)
  | .closing =>
    match o.blocks with
    | b :: blocks => .ok ({ o with blocks }.push b.close)
    | [] => .error (.strayEnd n)

/-- Adds lines, the first of which has number `n`. -/
def addLines (n : Nat) (o : Outline) : List (List Char) → Except Fault Outline
  | [] => .ok o
  | line :: lines => do
    let kind ← kindOf n line
    let o ← o.add n line kind
    addLines (n + 1) o lines

/-- Every block must be closed in the end; the innermost open one is named. -/
def finish (o : Outline) : Except Fault (List Node) :=
  match o.blocks with
  | b :: _ => .error (.unterminated b.line)
  | [] => .ok o.root

end Outline

/-- The tree of a template. -/
def parse (template : List Char) : Except Fault (List Node) := do
  (← Outline.addLines 1 {} (Text.lines template)).finish

end ImagePipeline.Template
