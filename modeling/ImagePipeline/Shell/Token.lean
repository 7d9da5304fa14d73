import ImagePipeline.Shell.Word
import ImagePipeline.Text.Digits

/-! The tokens of a shell script: words, separators and redirections. -/
namespace ImagePipeline.Shell

inductive RedirectKind where
  | write
  | append
  | read
  | duplicate
  deriving DecidableEq, Repr

inductive Token where
  /-- A word and the line it starts in. -/
  | word (line : Nat) (w : Word)
  | newline
  | semicolon
  | andThen
  | orElse
  | opening
  | closing
  | redirect (descriptor : Nat) (kind : RedirectKind)
  /-- What scripts here do not use. -/
  | other
  deriving DecidableEq, Repr

def isNameStart (c : Char) : Bool := c.isAlpha || c == '_'

def isNameChar (c : Char) : Bool := c.isAlphanum || c == '_'

/-- Reads what follows a dollar sign; none if the sign stands for itself. -/
def parameter? : List Char → Option (Parameter × List Char)
  | [] => none
  | '\x7b' :: cs =>
    let inside := cs.takeWhile (· != '\x7d')
    match cs.dropWhile (· != '\x7d') with
    | _ :: rest =>
      if inside.head?.any isNameStart && inside.all isNameChar then
        some (.named (String.ofList inside), rest)
      else (Text.decimal? inside).map fun n => (.position n, rest)
    | [] => none
  | '@' :: cs => some (.each, cs)
  | '*' :: cs => some (.joined, cs)
  | '#' :: cs => some (.count, cs)
  | '?' :: cs => some (.status, cs)
  | '$' :: cs => some (.process, cs)
  | c :: cs =>
    if c.isDigit then some (.position (c.toNat - '0'.toNat), cs)
    else if isNameStart c then
      let rest := cs.takeWhile isNameChar
      some (.named (String.ofList (c :: rest)), cs.drop rest.length)
    else none

/-- Adds a character to the last segment if that has the same quoting. -/
def addChar (quoted : Bool) (c : Char) : List Segment → List Segment
  | .literal q s :: before =>
    if q == quoted then .literal q (s.push c) :: before
    else .literal quoted (String.singleton c) :: .literal q s :: before
  | before => .literal quoted (String.singleton c) :: before

/-- Reads up to the closing double quote. The segments are in reverse. -/
def readDoubleQuoted : Nat → List Segment → List Char → Option (List Segment × List Char)
  | 0, _, _ => none
  | fuel + 1, acc, s =>
    match s with
    | [] => none
    | '"' :: rest => some (acc, rest)
    | '\\' :: '\n' :: rest => readDoubleQuoted fuel acc rest
    | '\\' :: c :: rest =>
      if ['$', '\x60', '"', '\\'].contains c then readDoubleQuoted fuel (addChar true c acc) rest
      else readDoubleQuoted fuel (addChar true c (addChar true '\\' acc)) rest
    | '$' :: rest =>
      match parameter? rest with
      | some (p, rest) => readDoubleQuoted fuel (.value true p :: acc) rest
      | none =>
        if rest.head? == some '(' then none
        else readDoubleQuoted fuel (addChar true '$' acc) rest
    | c :: rest => if c == '\x60' then none else readDoubleQuoted fuel (addChar true c acc) rest

def endsWord (c : Char) : Bool :=
  [' ', '\t', '\n', ';', '&', '|', '<', '>', '(', ')'].contains c

/-- Reads a word. The segments are in reverse. -/
def readWord : Nat → List Segment → List Char → Option (List Segment × List Char)
  | 0, _, _ => none
  | fuel + 1, acc, s =>
    match s with
    | [] => some (acc, [])
    | '\'' :: rest =>
      let inside := rest.takeWhile (· != '\'')
      match rest.drop inside.length with
      | _ :: rest => readWord fuel (.literal true (String.ofList inside) :: acc) rest
      | [] => none
    | '"' :: rest => do
      let (acc, rest) ← readDoubleQuoted fuel (.literal true "" :: acc) rest
      readWord fuel acc rest
    | '\\' :: '\n' :: rest => readWord fuel acc rest
    | '\\' :: c :: rest => readWord fuel (addChar true c acc) rest
    | '$' :: rest =>
      match parameter? rest with
      | some (p, rest) => readWord fuel (.value false p :: acc) rest
      | none =>
        if rest.head? == some '(' then none else readWord fuel (addChar false '$' acc) rest
    | c :: rest =>
      if endsWord c then some (acc, c :: rest)
      else if c == '\x60' then none
      else readWord fuel (addChar false c acc) rest

/-- A quote that holds only values starts no field by itself, unless it holds nothing. -/
def tidy : List Segment → List Segment
  | .literal true "" :: .value true p :: rest => .value true p :: tidy rest
  | s :: rest => s :: tidy rest
  | [] => []

/-- Reads the operator behind a descriptor. -/
def redirect? (descriptor : Option Nat) : List Char → Option (Token × List Char)
  | '>' :: '>' :: rest => some (.redirect (descriptor.getD 1) .append, rest)
  | '>' :: '&' :: rest => some (.redirect (descriptor.getD 1) .duplicate, rest)
  | '>' :: '|' :: rest | '>' :: rest => some (.redirect (descriptor.getD 1) .write, rest)
  | '<' :: '<' :: _ | '<' :: '&' :: _ => none
  | '<' :: rest => some (.redirect (descriptor.getD 0) .read, rest)
  | _ => none

/-- The tokens of a text; none if a quote is not closed or the text uses more of the
language than is known here. -/
def tokensFrom : Nat → Nat → List Char → Option (List Token)
  | 0, _, _ => none
  | fuel + 1, line, s =>
    match s with
    | [] => some []
    | ' ' :: rest | '\t' :: rest => tokensFrom fuel line rest
    | '\\' :: '\n' :: rest => tokensFrom fuel (line + 1) rest
    | '\n' :: rest => (tokensFrom fuel (line + 1) rest).map (Token.newline :: ·)
    | ';' :: rest => (tokensFrom fuel line rest).map (Token.semicolon :: ·)
    | '&' :: '&' :: rest => (tokensFrom fuel line rest).map (Token.andThen :: ·)
    | '|' :: '|' :: rest => (tokensFrom fuel line rest).map (Token.orElse :: ·)
    | '(' :: rest => (tokensFrom fuel line rest).map (Token.opening :: ·)
    | ')' :: rest => (tokensFrom fuel line rest).map (Token.closing :: ·)
    | '#' :: rest => tokensFrom fuel line (rest.dropWhile (· != '\n'))
    | c :: rest =>
      let digits := (c :: rest).takeWhile Char.isDigit
      match redirect? (Text.decimal? digits) ((c :: rest).drop digits.length) with
      | some (token, rest) => (tokensFrom fuel line rest).map (token :: ·)
      | none =>
        if endsWord c then (tokensFrom fuel line rest).map (Token.other :: ·)
        else do
          let (segments, rest) ← readWord (s.length + 1) [] s
          let lines := (s.take (s.length - rest.length)).count '\n'
          let tokens ← tokensFrom fuel (line + lines) rest
          return .word line (tidy segments.reverse) :: tokens

def tokens? (s : String) : Option (List Token) := tokensFrom (s.length + 1) 1 s.toList

end ImagePipeline.Shell
