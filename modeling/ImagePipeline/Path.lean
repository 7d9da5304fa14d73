import ImagePipeline.Text.Pieces

/-! Paths as text. A path keeps its spelling; two spellings are compared by their
components, which leave out repeated slashes and single dots. -/
namespace ImagePipeline

structure Path where
  text : String
  deriving DecidableEq, Repr

inductive Component where
  | root
  | here
  | parent
  | name (s : String)
  deriving DecidableEq, Repr

namespace Path

def chars (p : Path) : List Char := p.text.toList

def ofChars (cs : List Char) : Path := ⟨String.ofList cs⟩

def isEmpty (p : Path) : Bool := p.text.isEmpty

def isAbsolute (p : Path) : Bool := p.chars.head? == some '/'

/-- One piece between slashes; empty pieces and single dots are no components. -/
def componentOf? (piece : List Char) : Option Component :=
  if piece.isEmpty || piece == ['.'] then none
  else if piece == ['.', '.'] then some .parent
  else some (.name (String.ofList piece))

/-- A single dot counts only at the start of a relative path. -/
def components (p : Path) : List Component :=
  let pieces := Text.splitAt '/' p.chars
  let inner := pieces.filterMap componentOf?
  if p.isAbsolute then .root :: inner
  else if pieces.head? == some ['.'] then .here :: inner
  else inner

/-- An absolute second path replaces the first. -/
def join (p q : Path) : Path :=
  if q.isAbsolute then q
  else if p.isEmpty || p.chars.getLast? == some '/' then ⟨p.text ++ q.text⟩
  else ⟨p.text ++ "/" ++ q.text⟩

/-! The spelling of a part of a path is cut out of the spelling of the whole. -/

/-- Without the slashes and single dots in front. -/
def trimLeft : List Char → List Char
  | '/' :: cs => trimLeft cs
  | ['.'] => []
  | '.' :: '/' :: cs => trimLeft cs
  | cs => cs

/-- Without the slashes and single dots behind, for a text given in reverse. -/
def trimReversed : List Char → List Char
  | '/' :: cs => trimReversed cs
  | ['.'] => []
  | '.' :: '/' :: cs => trimReversed cs
  | cs => cs

def trimRight (cs : List Char) : List Char := (trimReversed cs.reverse).reverse

/-- The part in front that stands for itself: the root, or a leading dot. -/
def leading : List Char → List Char × List Char
  | '/' :: cs => (['/'], cs)
  | ['.'] => (['.'], [])
  | '.' :: '/' :: cs => (['.'], '/' :: cs)
  | cs => ([], cs)

/-- The path without its last component, if that is not the root. -/
def parent? (p : Path) : Option Path :=
  match p.components.getLast? with
  | none | some .root => none
  | some .here => some ⟨""⟩
  | some _ =>
    let (front, body) := leading p.chars
    let body := trimRight body
    let kept := (body.reverse.dropWhile (· != '/')).reverse
    some (ofChars (front ++ trimRight kept))

/-- Drops the first component of a path whose root has been passed. -/
def dropComponent (cs : List Char) : List Char :=
  ((trimLeft cs).dropWhile (· != '/')).drop 1

def dropComponents : Nat → List Char → List Char
  | 0, cs => cs
  | n + 1, cs => dropComponents n (dropComponent cs)

/-- What remains of a path below another one. -/
def below? (base p : Path) : Option Path :=
  if base.components.isPrefixOf p.components then
    match base.components with
    | [] =>
      let (front, body) := leading p.chars
      some (ofChars (front ++ trimRight body))
    | first :: rest =>
      let (_, body) := leading p.chars
      let consumed := match first with
        | .root | .here => rest.length
        | _ => rest.length + 1
      some (ofChars (trimRight (trimLeft (dropComponents consumed body))))
  else none

end Path

end ImagePipeline
