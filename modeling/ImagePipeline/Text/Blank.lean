/-! Blank characters and the two readings of a text that depend on them: its
trimmed form and its words. A character is blank exactly when Unicode gives it
the property White_Space. -/
namespace ImagePipeline.Text

/-- The Unicode property White_Space. -/
def isBlank (c : Char) : Bool :=
  (0x09 ≤ c.val && c.val ≤ 0x0D) || c.val == 0x20 || c.val == 0x85 || c.val == 0xA0 ||
  c.val == 0x1680 || (0x2000 ≤ c.val && c.val ≤ 0x200A) || c.val == 0x2028 ||
  c.val == 0x2029 || c.val == 0x202F || c.val == 0x205F || c.val == 0x3000

def trimStart (s : List Char) : List Char := s.dropWhile isBlank

def trimEnd (s : List Char) : List Char := (s.reverse.dropWhile isBlank).reverse

/-- The text without the blanks at both ends. -/
def trim (s : List Char) : List Char := trimEnd (trimStart s)

def trimmed (s : String) : String := String.ofList (trim s.toList)

/-- Nothing is left after trimming. -/
def isBlankText (s : String) : Bool := s.toList.all isBlank

/-- Puts a character in front of the first piece. -/
def consHead (c : Char) : List (List Char) → List (List Char)
  | [] => [[c]]
  | piece :: pieces => (c :: piece) :: pieces

/-- The maximal runs of characters that are not blank, in order. -/
def words : List Char → List (List Char)
  | [] => []
  | c :: cs =>
    if isBlank c then words cs
    else match cs with
      | [] => [[c]]
      | d :: _ => if isBlank d then [c] :: words cs else consHead c (words cs)

end ImagePipeline.Text
