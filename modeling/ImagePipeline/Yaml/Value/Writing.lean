import ImagePipeline.Text.Digits
import ImagePipeline.Yaml.Cursor
import ImagePipeline.Yaml.Scalar
import ImagePipeline.Yaml.Token
import ImagePipeline.Yaml.Value

/-! The text of a document: block style, two columns for each level, lines of any
length. A text is written without quotes where that reads back as the same text,
between single quotes where these suffice, and else between double quotes; a text
of several lines is written as a literal block where its blanks allow that. -/
namespace ImagePipeline.Yaml

/-- Characters that may stand in a scalar unescaped. -/
def isPrintable (c : Char) : Bool :=
  c == '\n' || (0x20 ≤ c.val && c.val ≤ 0x7E) || (0xA0 ≤ c.val && c.val ≤ 0xD7FF) ||
  (0xE000 ≤ c.val && c.val ≤ 0xFFFD && c.val != 0xFEFF) || 0x10000 ≤ c.val

def isLineEnd (c : Char) : Bool := isBreak c || c == '\r' || c == '\u0085'

/-- What a text holds that bears on how it may be written. -/
structure Shape where
  plain : Bool
  single : Bool
  literal : Bool
  multiline : Bool

/-- A mark that would start or end something else than a plain scalar. `before` and
`after` are the neighbours of the character. -/
def isIndicatorAt (before : Option Char) (c : Char) (after : Option Char) : Bool :=
  let blank (d : Option Char) := d.all fun d => isSpaceOrTab d || isLineEnd d
  match before with
  | none =>
    ['#', ',', '[', ']', '{', '}', '&', '*', '!', '|', '>', '\'', '"', '%', '@', '`'].contains c ||
      ((c == '?' || c == ':' || c == '-') && blank after)
  | some _ => (c == ':' && blank after) || (c == '#' && blank before)

def hasIndicator (before : Option Char) : List Char → Bool
  | [] => false
  | c :: cs => isIndicatorAt before c cs.head? || hasIndicator (some c) cs

/-- Some character of the first class stands directly before one of the second. -/
def hasAdjacent (p q : Char → Bool) : List Char → Bool
  | c :: d :: cs => (p c && q d) || hasAdjacent p q (d :: cs)
  | _ => false

def startsLikeMark (s : List Char) : Bool :=
  s.take 3 == ['-', '-', '-'] || s.take 3 == ['.', '.', '.']

def shapeOf (s : List Char) : Shape :=
  let isSpace (c : Char) := c == ' '
  let edge (d : Option Char) := d.any fun c => isSpace c || isLineEnd c
  let special := s.any (fun c => !isPrintable c) || hasAdjacent isSpace isLineEnd s
  let multiline := s.any isLineEnd
  let spaceAfterLineEnd := hasAdjacent isLineEnd isSpace s
  { plain := !(special || multiline || edge s.head? || edge s.getLast? || startsLikeMark s ||
      hasIndicator none s)
    single := !(special || spaceAfterLineEnd)
    literal := !(special || s.getLast?.any isSpace || s.isEmpty)
    multiline }

/-- How a text is written. -/
def styleOf (s : String) : ScalarStyle :=
  let shape := shapeOf s.toList
  if s.toList.contains '\n' then (if shape.literal then .literal else .doubleQuoted)
  else if Scalar.isPlainText s && shape.plain then .plain
  else if shape.single then .singleQuoted
  else .doubleQuoted

def pad (column : Nat) : List Char := List.replicate column ' '

/-- Single quotes are doubled; the line after a line end is indented. -/
def singleQuotedChars (column : Nat) (afterBreak : Bool) : List Char → List Char
  | [] => if afterBreak then pad column else []
  | c :: cs =>
    if isBreak c then c :: singleQuotedChars column true cs
    else (if afterBreak then pad column else []) ++
      (if c == '\'' then ['\'', '\''] else [c]) ++ singleQuotedChars column false cs

def hexUpper (width n : Nat) : List Char := (Text.padded 16 width n).toList.map Char.toUpper

/-- The escape of a character between double quotes. -/
def escapeChar (c : Char) : List Char :=
  match c with
  | '\x00' => ['\\', '0']
  | '\x07' => ['\\', 'a']
  | '\x08' => ['\\', 'b']
  | '\t' => ['\\', 't']
  | '\n' => ['\\', 'n']
  | '\x0b' => ['\\', 'v']
  | '\x0c' => ['\\', 'f']
  | '\r' => ['\\', 'r']
  | '\x1b' => ['\\', 'e']
  | '"' => ['\\', '"']
  | '\\' => ['\\', '\\']
  | '\u0085' => ['\\', 'N']
  | '\u00a0' => ['\\', '_']
  | '\u2028' => ['\\', 'L']
  | '\u2029' => ['\\', 'P']
  | c =>
    let n := c.toNat
    if n ≤ 0xFF then '\\' :: 'x' :: hexUpper 2 n
    else if n ≤ 0xFFFF then '\\' :: 'u' :: hexUpper 4 n
    else '\\' :: 'U' :: hexUpper 8 n

def doubleQuotedChar (c : Char) : List Char :=
  if !isPrintable c || isLineEnd c || c == '"' || c == '\\' then escapeChar c else [c]

/-- The lines of a literal block at a column; empty lines stay empty. -/
def literalChars (column : Nat) (atStart : Bool) : List Char → List Char
  | [] => []
  | c :: cs =>
    if isBreak c then c :: literalChars column true cs
    else (if atStart then pad column else []) ++ c :: literalChars column false cs

/-- The indicators of a literal block: its indentation where the content starts with
a blank, and what becomes of the line ends behind the content. -/
def literalHeader (s : List Char) : List Char :=
  let startsBlank := s.head?.any fun c => c == ' ' || isBreak c
  let chomping := match s.reverse with
    | [] => ['-']
    | last :: others =>
      if !isBreak last then ['-'] else if others.head?.all isBreak then ['+'] else []
  '|' :: (if startsBlank then ['2'] else []) ++ chomping

/-- A text in its place, with the column for the lines after the first. -/
def scalarChars (column : Nat) (s : String) : List Char :=
  match styleOf s with
  | .plain => s.toList
  | .singleQuoted => '\'' :: singleQuotedChars column false s.toList ++ ['\'']
  | .literal => literalHeader s.toList ++ '\n' :: literalChars column true s.toList
  | _ => '"' :: s.toList.flatMap doubleQuotedChar ++ ['"']

/-- Ends the line unless what stands on it has done so. -/
def endLine (text : List Char) : List Char :=
  if text.getLast?.any isBreak then text else text ++ ['\n']

/-- A key longer than this many bytes, or of several lines, is marked by `?`. -/
def isShortKey (key : String) : Bool :=
  key.utf8ByteSize ≤ 128 && !(shapeOf key.toList).multiline

mutual

/-- A value that starts in the middle of a line: after a dash, or after the `:` that
stands on its own. `column` is the column of what the value holds. -/
def inlineChars (column : Nat) : Value → List Char
  | .string s => endLine (scalarChars column s)
  | .bool b => (if b then "true" else "false").toList ++ ['\n']
  | .int n => (toString n).toList ++ ['\n']
  | .sequence [] => ['[', ']', '\n']
  | .sequence (item :: items) =>
    '-' :: ' ' :: inlineChars (column + 2) item ++ itemsChars column items
  | .mapping [] => ['{', '}', '\n']
  | .mapping ((key, value) :: entries) =>
    entryChars column key value ++ entriesChars column entries

def itemsChars (column : Nat) : List Value → List Char
  | [] => []
  | item :: items =>
    pad column ++ '-' :: ' ' :: inlineChars (column + 2) item ++ itemsChars column items

def entriesChars (column : Nat) : List (String × Value) → List Char
  | [] => []
  | (key, value) :: entries =>
    pad column ++ entryChars column key value ++ entriesChars column entries

/-- An entry of a mapping whose keys stand at a column. The items of a sequence
stand at the same column, the entries of a mapping two further. -/
def entryChars (column : Nat) (key : String) (value : Value) : List Char :=
  if isShortKey key then
    scalarChars (column + 2) key ++ ':' ::
      match value with
      | .sequence (item :: items) =>
        '\n' :: pad column ++ '-' :: ' ' :: inlineChars (column + 2) item ++ itemsChars column items
      | .mapping ((k, v) :: entries) =>
        '\n' :: pad (column + 2) ++ entryChars (column + 2) k v ++ entriesChars (column + 2) entries
      | v => ' ' :: inlineChars (column + 2) v
  else
    '?' :: ' ' :: endLine (scalarChars (column + 2) key) ++ pad column ++ ':' :: ' ' ::
      inlineChars (column + 2) value

end

namespace Value

/-- The text of a document that holds the value. -/
def write (v : Value) : String := String.ofList (inlineChars 0 v)

end Value

end ImagePipeline.Yaml
