import ImagePipeline.Text.Digits

/-! Reading one member of a JSON object. The text must be well-formed as a whole;
what the other members hold does not matter. -/
namespace ImagePipeline.Json

/-- A problem, and the text from there on. -/
structure Fault where
  problem : String
  rest : List Char
  deriving Repr

def skipSpace (s : List Char) : List Char :=
  s.dropWhile fun c => c == ' ' || c == '\n' || c == '\t' || c == '\r'

/-- A problem with the next character. -/
def faultAt {α : Type} (problem : String) (s : List Char) : Except Fault α :=
  .error ⟨problem, s.tail⟩

def endOfText {α : Type} (what : String) : Except Fault α :=
  .error ⟨"EOF while parsing " ++ what, []⟩

def fourDigits? (s : List Char) : Option Nat :=
  let digits := s.take 4
  if digits.length = 4 then Text.natural? 16 digits else none

def invalidEscape : String := "invalid escape"

def simpleEscape? : Char → Option Char
  | '"' => some '"'
  | '\\' => some '\\'
  | '/' => some '/'
  | 'b' => some '\x08'
  | 'f' => some '\x0c'
  | 'n' => some '\n'
  | 'r' => some '\r'
  | 't' => some '\t'
  | _ => none

/-- The character of `\u` and four digits, or of two of these that are surrogates. -/
def readUnicodeEscape (s : List Char) : Except Fault (Char × List Char) :=
  match fourDigits? s with
  | none => .error ⟨invalidEscape, s.drop 4⟩
  | some high =>
    let s := s.drop 4
    if 0xDC00 ≤ high && high ≤ 0xDFFF then .error ⟨"lone leading surrogate in hex escape", s⟩
    else if high < 0xD800 || 0xDBFF < high then .ok (Char.ofNat high, s)
    else match s with
      | '\\' :: 'u' :: rest =>
        match fourDigits? rest with
        | none => .error ⟨invalidEscape, rest.drop 4⟩
        | some low =>
          if 0xDC00 ≤ low && low ≤ 0xDFFF then
            .ok (Char.ofNat (0x10000 + (high - 0xD800) * 0x400 + (low - 0xDC00)), rest.drop 4)
          else .error ⟨"lone leading surrogate in hex escape", rest.drop 4⟩
      | _ => .error ⟨"unexpected end of hex escape", s.drop 1⟩

/-- Reads a string from behind its opening quote. -/
def readString : Nat → List Char → List Char → Except Fault (String × List Char)
  | 0, _, _ => endOfText "a string"
  | fuel + 1, acc, s =>
    match s with
    | [] => endOfText "a string"
    | '"' :: rest => .ok (String.ofList acc.reverse, rest)
    | '\\' :: 'u' :: rest => do
      let (c, rest) ← readUnicodeEscape rest
      readString fuel (c :: acc) rest
    | '\\' :: c :: rest =>
      match simpleEscape? c with
      | some d => readString fuel (d :: acc) rest
      | none => .error ⟨invalidEscape, rest⟩
    | ['\\'] => endOfText "a string"
    | c :: rest =>
      if c.toNat < 0x20 then
        .error ⟨"control character (\\u0000-\\u001F) found while parsing a string", rest⟩
      else readString fuel (c :: acc) rest

/-- Passes a string whose content does not matter, surrogates included. -/
def skipString : Nat → List Char → Except Fault (List Char)
  | 0, _ => endOfText "a string"
  | fuel + 1, s =>
    match s with
    | [] => endOfText "a string"
    | '"' :: rest => .ok rest
    | '\\' :: 'u' :: rest =>
      if (fourDigits? rest).isSome then skipString fuel (rest.drop 4)
      else .error ⟨invalidEscape, rest.drop 4⟩
    | '\\' :: c :: rest =>
      if (simpleEscape? c).isSome then skipString fuel rest else .error ⟨invalidEscape, rest⟩
    | ['\\'] => endOfText "a string"
    | c :: rest =>
      if c.toNat < 0x20 then
        .error ⟨"control character (\\u0000-\\u001F) found while parsing a string", rest⟩
      else skipString fuel rest

def skipDigits (s : List Char) : List Char := s.dropWhile Char.isDigit

/-- One or more digits. -/
def requireDigits (s : List Char) : Except Fault (List Char) :=
  if s.head?.any Char.isDigit then .ok (skipDigits s)
  else if s.isEmpty then endOfText "a value"
  else faultAt "invalid number" s

/-- Passes a number without its sign. -/
def skipNumber (s : List Char) : Except Fault (List Char) := do
  let s ← match s with
    | '0' :: rest => if rest.head?.any Char.isDigit then faultAt "invalid number" rest else .ok rest
    | s => requireDigits s
  let s ← match s with
    | '.' :: rest => requireDigits rest
    | s => .ok s
  match s with
  | 'e' :: '+' :: rest | 'e' :: '-' :: rest | 'E' :: '+' :: rest | 'E' :: '-' :: rest
  | 'e' :: rest | 'E' :: rest => requireDigits rest
  | s => .ok s

def skipWord (word : List Char) (s : List Char) : Except Fault (List Char) :=
  match word, s with
  | [], s => .ok s
  | _ :: _, [] => endOfText "a value"
  | w :: word, c :: s => if w == c then skipWord word s else .error ⟨"expected ident", s⟩

mutual

/-- Passes a value. -/
def skipValue : Nat → List Char → Except Fault (List Char)
  | 0, _ => endOfText "a value"
  | fuel + 1, s =>
    match skipSpace s with
    | [] => endOfText "a value"
    | 'n' :: rest => skipWord "ull".toList rest
    | 't' :: rest => skipWord "rue".toList rest
    | 'f' :: rest => skipWord "alse".toList rest
    | '-' :: rest => skipNumber rest
    | '"' :: rest => skipString (rest.length + 1) rest
    | '[' :: rest =>
      match skipSpace rest with
      | ']' :: rest => .ok rest
      | rest => skipItems fuel rest
    | '\x7b' :: rest =>
      match skipSpace rest with
      | '\x7d' :: rest => .ok rest
      | rest => skipMembers fuel rest
    | c :: rest => if c.isDigit then skipNumber (c :: rest) else .error ⟨"expected value", rest⟩

def skipItems : Nat → List Char → Except Fault (List Char)
  | 0, _ => endOfText "a list"
  | fuel + 1, s => do
    let s ← skipValue fuel s
    match skipSpace s with
    | ',' :: rest => skipItems fuel rest
    | ']' :: rest => return rest
    | [] => endOfText "a list"
    | s => faultAt "expected `,` or `]`" s

def skipMembers : Nat → List Char → Except Fault (List Char)
  | 0, _ => endOfText "an object"
  | fuel + 1, s => do
    let s ← match skipSpace s with
      | '"' :: rest => skipString (rest.length + 1) rest
      | [] => endOfText "an object"
      | s => faultAt "key must be a string" s
    let s ← match skipSpace s with
      | ':' :: rest => skipValue fuel rest
      | [] => endOfText "an object"
      | s => faultAt "expected `:`" s
    match skipSpace s with
    | ',' :: rest => skipMembers fuel rest
    | '\x7d' :: rest => return rest
    | [] => endOfText "an object"
    | s => faultAt "expected `,` or `\x7d`" s

end

def integerText (s : List Char) : String := "integer `" ++ String.ofList s ++ "`"

/-- What kind of value starts here, for a message; none if none does. -/
def describe? (s : List Char) : Option String :=
  match s with
  | 'n' :: _ => some "null"
  | 't' :: _ => some "boolean `true`"
  | 'f' :: _ => some "boolean `false`"
  | '[' :: _ => some "sequence"
  | '\x7b' :: _ => some "map"
  | '"' :: rest =>
    match readString (rest.length + 1) [] rest with
    | .ok (text, _) => some ("string \"" ++ text ++ "\"")
    | .error _ => some "string"
  | '-' :: rest => some (integerText ('-' :: rest.takeWhile Char.isDigit))
  | c :: _ => if c.isDigit then some (integerText (s.takeWhile Char.isDigit)) else none
  | [] => none

/-- A value of the wrong kind. -/
def wrongType {α : Type} (expected : String) (s : List Char) : Except Fault α := do
  let rest ← skipValue (s.length + 1) s
  .error ⟨"invalid type: " ++ (describe? s).getD "value" ++ ", expected " ++ expected, rest⟩

/-- A text or `null`. -/
def readOptionalString (s : List Char) : Except Fault (Option String × List Char) := do
  match skipSpace s with
  | 'n' :: rest => return (none, ← skipWord "ull".toList rest)
  | '"' :: rest =>
    let (text, rest) ← readString (rest.length + 1) [] rest
    return (some text, rest)
  | s => wrongType "a string" s

/-- Reads the members of an object for the one with the name, which may occur once. -/
def readMember (name : String) : Nat → Option (Option String) → List Char →
    Except Fault (Option String × List Char)
  | 0, _, _ => endOfText "an object"
  | fuel + 1, found, s => do
    let (key, s) ← match skipSpace s with
      | '"' :: rest => readString (rest.length + 1) [] rest
      | [] => endOfText "an object"
      | s => faultAt "key must be a string" s
    if key == name && found.isSome then
      throw ⟨"duplicate field `" ++ name ++ "`", s⟩
    let s ← match skipSpace s with
      | ':' :: rest => pure rest
      | [] => endOfText "an object"
      | s => faultAt "expected `:`" s
    let (found, s) ←
      if key == name then
        let (value, s) ← readOptionalString s
        pure (some value, s)
      else
        let s ← skipValue (s.length + 1) s
        pure (found, s)
    match skipSpace s with
    | ',' :: rest => readMember name fuel found rest
    | '\x7d' :: rest => return (found.join, rest)
    | [] => endOfText "an object"
    | s => faultAt "expected `,` or `\x7d`" s

/-- Reads a record with one optional text, which an object holds under its name and an
array as its only item. -/
def readRecord (type name : String) (s : List Char) : Except Fault (Option String) := do
  let expected := "struct " ++ type
  let (value, rest) ← match skipSpace s with
    | [] => endOfText "a value"
    | '\x7b' :: rest =>
      match skipSpace rest with
      | '\x7d' :: rest => pure (none, rest)
      | rest => readMember name (rest.length + 1) none rest
    | '[' :: rest =>
      match skipSpace rest with
      | ']' :: rest =>
        .error ⟨"invalid length 0, expected " ++ expected ++ " with 1 element", rest⟩
      | rest =>
        let (value, rest) ← readOptionalString rest
        match skipSpace rest with
        | ']' :: rest => pure (value, rest)
        | [] => endOfText "a list"
        | ',' :: _ => faultAt "trailing characters" (skipSpace rest)
        | rest => faultAt "expected `,` or `]`" rest
    | s => wrongType expected s
  match skipSpace rest with
  | [] => return value
  | rest => faultAt "trailing characters" rest

/-- The problem with its line and column in the text. -/
def Fault.message (f : Fault) (text : List Char) : String :=
  let passed := text.take (text.length - f.rest.length)
  let line := passed.count '\n' + 1
  let column := (String.ofList ((passed.reverse.takeWhile (· != '\n')))).utf8ByteSize
  f.problem ++ " at line " ++ toString line ++ " column " ++ toString column

end ImagePipeline.Json
