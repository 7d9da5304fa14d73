/-! A position in the text of a document. Line ends have one spelling here:
`normalize` writes every line end as a line feed, except the two Unicode
separators, which a scalar keeps. -/
namespace ImagePipeline.Yaml

/-- The characters that a document may hold. -/
def isAllowed (c : Char) : Bool :=
  c == '\t' || c == '\n' || c == '\r' || (0x20 ≤ c.val && c.val ≤ 0x7E) || c.val == 0x85 ||
  (0xA0 ≤ c.val && c.val ≤ 0xD7FF) || (0xE000 ≤ c.val && c.val ≤ 0xFFFD) || 0x10000 ≤ c.val

def isSeparator (c : Char) : Bool := c.val == 0x2028 || c.val == 0x2029

def isBreak (c : Char) : Bool := c == '\n' || isSeparator c

def isSpaceOrTab (c : Char) : Bool := c == ' ' || c == '\t'

/-- Letters, digits, hyphen and underscore of ASCII: anchors and tag handles
consist of these. -/
def isWordChar (c : Char) : Bool := c.isAlphanum || c == '-' || c == '_'

def normalize : List Char → List Char
  | [] => []
  | '\r' :: '\n' :: cs => '\n' :: normalize cs
  | '\r' :: cs => '\n' :: normalize cs
  | '\u0085' :: cs => '\n' :: normalize cs
  | c :: cs => c :: normalize cs

structure Cursor where
  rest : List Char
  index : Nat
  line : Nat
  column : Nat

namespace Cursor

def ofText (s : List Char) : Cursor := ⟨s, 0, 0, 0⟩

def atEnd (c : Cursor) : Bool := c.rest.isEmpty

/-- The character `n` places ahead. -/
def ahead? (c : Cursor) (n : Nat) : Option Char := c.rest[n]?

def sees (c : Cursor) (ch : Char) : Bool := c.rest.head? == some ch

/-- The `n`th character is a space, a tab, a line end or the end of the text. -/
def isBlankAt (c : Cursor) (n : Nat) : Bool :=
  match c.ahead? n with
  | none => true
  | some ch => isSpaceOrTab ch || isBreak ch

def isSpaceAt (c : Cursor) (n : Nat) : Bool :=
  match c.ahead? n with
  | none => false
  | some ch => isSpaceOrTab ch

/-- Passes one character. -/
def next (c : Cursor) : Cursor :=
  match c.rest with
  | [] => c
  | ch :: rest =>
    if isBreak ch then ⟨rest, c.index + 1, c.line + 1, 0⟩
    else ⟨rest, c.index + 1, c.line, c.column + 1⟩

/-- Passes `n` characters of the line. -/
def skip (c : Cursor) (n : Nat) : Cursor :=
  ⟨c.rest.drop n, c.index + n, c.line, c.column + n⟩

/-- The longest run of characters in the class, which holds no line end, and
the position after it. -/
def run (c : Cursor) (p : Char → Bool) : List Char × Cursor :=
  let taken := c.rest.takeWhile p
  (taken, c.skip taken.length)

def skipRun (c : Cursor) (p : Char → Bool) : Cursor := (c.run p).2

def skipSpaces (c : Cursor) : Cursor := c.skipRun isSpaceOrTab

def skipToLineEnd (c : Cursor) : Cursor := c.skipRun fun ch => !isBreak ch

/-- A document mark, three equal characters that start a line and stand alone. -/
def seesMark (c : Cursor) (ch : Char) : Bool :=
  c.column == 0 && c.rest.take 3 == [ch, ch, ch] && c.isBlankAt 3

def seesDocumentMark (c : Cursor) : Bool := c.seesMark '-' || c.seesMark '.'

end Cursor

end ImagePipeline.Yaml
