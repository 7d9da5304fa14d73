/-! Patterns of paths. A star stands for any characters, slashes among them. Two stars and a slash
stand for directories, of which there may be none. -/
namespace ImagePipeline

inductive PatternPiece where
  | char (c : Char)
  | anything
  /-- Directories, each with its slash. -/
  | directories
  deriving DecidableEq, Repr

abbrev PathPattern := List PatternPiece

namespace PathPattern

/-- Reads a pattern where a component starts or goes on. None if two stars are no component, or if
more of the language is used than is known here. -/
def read? (starts : Bool) : List Char → Option PathPattern
  | [] => some []
  | '*' :: '*' :: '/' :: cs => if starts then (read? true cs).map (.directories :: ·) else none
  | '*' :: '*' :: _ => none
  | '*' :: cs => (read? false cs).map (.anything :: ·)
  | c :: cs =>
    if c == '?' || c == '[' then none else (read? (c == '/') cs).map (.char c :: ·)

def ofText? (s : String) : Option PathPattern := read? true s.toList

/-- What is left of a text behind any part of it. -/
def ends : List Char → List (List Char)
  | [] => [[]]
  | c :: cs => (c :: cs) :: ends cs

/-- What is left of a text behind each of its slashes. -/
def behindSlashes : List Char → List (List Char)
  | [] => []
  | c :: cs => if c == '/' then cs :: behindSlashes cs else behindSlashes cs

/-- Whether a pattern describes a path as a whole. -/
def accepts : PathPattern → List Char → Bool
  | [], path => path.isEmpty
  | .char c :: pieces, path =>
    match path with
    | [] => false
    | d :: rest => c == d && accepts pieces rest
  | .anything :: pieces, path => (ends path).any fun rest => accepts pieces rest
  | .directories :: pieces, path =>
    (path :: behindSlashes path).any fun rest => accepts pieces rest

end PathPattern

end ImagePipeline
