import ImagePipeline.Text.Blank

/-! Lines of a text. A line ends at a line feed, or at a carriage return and a
line feed together; a text that ends so has no empty line after it. -/
namespace ImagePipeline.Text

def lines : List Char → List (List Char)
  | [] => []
  | '\n' :: cs => [] :: lines cs
  | '\r' :: '\n' :: cs => [] :: lines cs
  | [c] => [[c]]
  | c :: cs => consHead c (lines cs)

def linesOf (s : String) : List String := (lines s.toList).map String.ofList

/-- The lines put together again, with a line feed between any two. -/
def unlines (ls : List (List Char)) : List Char := List.intercalate ['\n'] ls

/-- A text of these lines that ends with a line feed. -/
def ofLines (ls : List String) : String := String.join (ls.map fun l => l ++ "\n")

def endsWithLineFeed (s : List Char) : Bool := s.getLast? == some '\n'

end ImagePipeline.Text
