import ImagePipeline.Text.Digits
import ImagePipeline.Yaml.Cursor
import ImagePipeline.Yaml.Fault

/-! The text of a scalar. A scalar that spans lines is folded: a single line end
between two lines reads as a space, and of several line ends the first is
dropped. -/
namespace ImagePipeline.Yaml

/-- What stands between two pieces of a scalar: blanks of one line, or line ends
with the blanks around them dropped. -/
structure Gap where
  blanks : List Char := []
  broken : Bool := false
  first : List Char := []
  more : List Char := []

namespace Gap

def isEmpty (g : Gap) : Bool := g.blanks.isEmpty && !g.broken

def blank (g : Gap) (c : Char) : Gap :=
  if g.broken then g else { g with blanks := g.blanks ++ [c] }

def lineEnd (g : Gap) (c : Char) : Gap :=
  if g.broken then { g with more := g.more ++ [c] }
  else { blanks := [], broken := true, first := [c], more := [] }

/-- A line end in front of which a backslash stands reads as nothing. -/
def escapedLineEnd : Gap := { broken := true }

def text (g : Gap) : List Char :=
  if !g.broken then g.blanks
  else if g.first == ['\n'] then (if g.more.isEmpty then [' '] else g.more)
  else g.first ++ g.more

end Gap

/-- Reads blanks and line ends. Where `indent` is given, a tab of a later line
must not stand before that column. -/
def readGap (indent : Option Int) : Nat → Gap → Cursor → Except Fault (Gap × Cursor)
  | 0, gap, c => .ok (gap, c)
  | fuel + 1, gap, c =>
    match c.rest with
    | [] => .ok (gap, c)
    | ch :: _ =>
      if isSpaceOrTab ch then
        if gap.broken && ch == '\t' && indent.any (fun i => decide ((c.column : Int) < i)) then
          .error (.tabInIndentation c.line)
        else readGap indent fuel (gap.blank ch) c.next
      else if isBreak ch then readGap indent fuel (gap.lineEnd ch) c.next
      else .ok (gap, c)

/-! ### Plain scalars -/

def isFlowBracket (c : Char) : Bool := c == '[' || c == ']' || c == '{' || c == '}'

/-- Reads one run of a plain scalar, up to a blank or an indicator that ends it. -/
def readPlainRun (inFlow : Bool) : Nat → List Char → Cursor → Except Fault (List Char × Cursor)
  | 0, acc, c => .ok (acc.reverse, c)
  | fuel + 1, acc, c =>
    match c.rest with
    | [] => .ok (acc.reverse, c)
    | ch :: _ =>
      if c.isBlankAt 0 then .ok (acc.reverse, c)
      else if inFlow && ch == ':' &&
          (c.ahead? 1).any (fun d => d == ',' || d == '?' || isFlowBracket d) then
        .error (.unexpectedColon c.line)
      else if (ch == ':' && c.isBlankAt 1) || (inFlow && (ch == ',' || isFlowBracket ch)) then
        .ok (acc.reverse, c)
      else readPlainRun inFlow fuel (ch :: acc) c.next

/-- The result of reading a plain scalar: its text, the position after it and
the line ends that follow it, and whether there was one. -/
structure PlainScalar where
  text : List Char
  after : Cursor
  endedLine : Bool

def readPlain (inFlow : Bool) (indent : Int) :
    Nat → List Char → Gap → Cursor → Except Fault PlainScalar
  | 0, text, gap, c => .ok ⟨text, c, gap.broken⟩
  | fuel + 1, text, gap, c => do
    if c.seesDocumentMark || c.sees '#' then return ⟨text, c, gap.broken⟩
    let (run, c) ← readPlainRun inFlow (c.rest.length + 1) [] c
    let text := if run.isEmpty then text else text ++ gap.text ++ run
    let gap := if run.isEmpty then gap else {}
    if c.atEnd || !c.isBlankAt 0 then return ⟨text, c, gap.broken⟩
    let (gap, c) ← readGap (some indent) (c.rest.length + 1) gap c
    if !inFlow && c.column < indent then return ⟨text, c, gap.broken⟩
    readPlain inFlow indent fuel text gap c

/-! ### Quoted scalars -/

/-- The character that a one-letter escape stands for. -/
def escapeOf? : Char → Option Char
  | '0' => some '\x00'
  | 'a' => some '\x07'
  | 'b' => some '\x08'
  | 't' => some '\t'
  | '\t' => some '\t'
  | 'n' => some '\n'
  | 'v' => some '\x0b'
  | 'f' => some '\x0c'
  | 'r' => some '\r'
  | 'e' => some '\x1b'
  | ' ' => some ' '
  | '"' => some '"'
  | '/' => some '/'
  | '\\' => some '\\'
  | 'N' => some '\u0085'
  | '_' => some '\u00a0'
  | 'L' => some '\u2028'
  | 'P' => some '\u2029'
  | _ => none

/-- How many digits follow the letter of a numeric escape. -/
def escapeDigits? : Char → Option Nat
  | 'x' => some 2
  | 'u' => some 4
  | 'U' => some 8
  | _ => none

/-- The character with this number, which must be one. -/
def charOfNumber? (n : Nat) : Option Char :=
  if n.isValidChar then some (Char.ofNat n) else none

/-- Reads the escape at a backslash. -/
def readEscape (c : Cursor) : Except Fault (Char × Cursor) :=
  match c.ahead? 1 with
  | none => .error (.malformedEscape c.line)
  | some letter =>
    match escapeOf? letter, escapeDigits? letter with
    | some ch, _ => .ok (ch, c.skip 2)
    | none, some count =>
      let digits := (c.rest.drop 2).take count
      let number := if digits.length = count then Text.natural? 16 digits else none
      match number.bind charOfNumber? with
      | some ch => .ok (ch, c.skip (2 + count))
      | none => .error (.malformedEscape c.line)
    | none, none => .error (.malformedEscape c.line)

/-- Reads a run of a quoted scalar up to a blank, the closing quote or an escaped
line end; the last part tells whether such a line end stopped it. -/
def readQuotedRun (single : Bool) : Nat → List Char → Cursor →
    Except Fault (List Char × Cursor × Bool)
  | 0, acc, c => .ok (acc.reverse, c, false)
  | fuel + 1, acc, c => do
    match c.rest with
    | [] => return (acc.reverse, c, false)
    | ch :: _ =>
      if c.isBlankAt 0 then return (acc.reverse, c, false)
      else if single then
        if ch == '\'' then
          if c.ahead? 1 == some '\'' then readQuotedRun single fuel ('\'' :: acc) (c.skip 2)
          else return (acc.reverse, c, false)
        else readQuotedRun single fuel (ch :: acc) c.next
      else if ch == '"' then return (acc.reverse, c, false)
      else if ch == '\\' then
        if (c.ahead? 1).any isBreak then return (acc.reverse, c.next.next, true)
        else
          let (escaped, c) ← readEscape c
          readQuotedRun single fuel (escaped :: acc) c
      else readQuotedRun single fuel (ch :: acc) c.next

/-- Reads a quoted scalar from behind its opening quote. -/
def readQuoted (single : Bool) : Nat → List Char → Cursor → Except Fault (List Char × Cursor)
  | 0, _, c => .error (.unclosedQuote c.line)
  | fuel + 1, text, c => do
    if c.seesDocumentMark || c.atEnd then throw (.unclosedQuote c.line)
    let (run, c, escapedEnd) ← readQuotedRun single (c.rest.length + 1) [] c
    let text := text ++ run
    if !escapedEnd && c.sees (if single then '\'' else '"') then return (text, c.next)
    let (gap, c) ← readGap none (c.rest.length + 1)
      (if escapedEnd then Gap.escapedLineEnd else {}) c
    readQuoted single fuel (text ++ gap.text) c

/-! ### Block scalars -/

inductive Chomping where
  | clip
  | strip
  | keep
  deriving DecidableEq, Repr

structure BlockHeader where
  chomping : Chomping := .clip
  indent : Option Nat := none

def chompingOf? : Char → Option Chomping
  | '+' => some .keep
  | '-' => some .strip
  | _ => none

def readIndentDigit (header : BlockHeader) (c : Cursor) : Except Fault (BlockHeader × Cursor) :=
  match c.rest with
  | ch :: _ =>
    if ch == '0' then .error (.malformedHeader c.line)
    else if ch.isDigit then .ok ({ header with indent := Text.digitValue? ch }, c.next)
    else .ok (header, c)
  | [] => .ok (header, c)

def readChomping (header : BlockHeader) (c : Cursor) : BlockHeader × Cursor :=
  match c.rest.head?.bind chompingOf? with
  | some chomping => ({ header with chomping }, c.next)
  | none => (header, c)

/-- Reads what follows `|` or `>` on its line: the two indicators in either
order, a comment and the line end. -/
def readBlockHeader (c : Cursor) : Except Fault (BlockHeader × Cursor) := do
  let (header, c) ←
    if (c.rest.head?.bind chompingOf?).isSome then
      let (header, c) := readChomping {} c
      readIndentDigit header c
    else
      let (header, after) ← readIndentDigit {} c
      if header.indent.isSome then pure (readChomping header after) else pure (header, after)
  let c := c.skipSpaces
  let c := if c.sees '#' then c.skipToLineEnd else c
  match c.rest with
  | [] => return (header, c)
  | ch :: _ => if isBreak ch then return (header, c.next) else throw (.malformedHeader c.line)

/-- Reads the empty lines before a line of content, and the indentation of that
line. While the indentation of the scalar is open, `widest` is the widest seen. -/
def readIndentation (indent : Option Nat) : Nat → Nat → List Char → Cursor →
    Except Fault (Nat × List Char × Cursor)
  | 0, widest, breaks, c => .ok (widest, breaks, c)
  | fuel + 1, widest, breaks, c =>
    let open_ (column : Nat) := indent.all fun i => column < i
    let spaces := (c.rest.takeWhile (· == ' ')).length
    let allowed := match indent with
      | none => spaces
      | some i => min spaces (i - c.column)
    let c := c.skip allowed
    let widest := max widest c.column
    match c.rest with
    | [] => .ok (widest, breaks, c)
    | ch :: _ =>
      if open_ c.column && ch == '\t' then .error (.tabInIndentation c.line)
      else if isBreak ch then readIndentation indent fuel widest (breaks ++ [ch]) c.next
      else .ok (widest, breaks, c)

structure BlockState where
  text : List Char := []
  leadingBreak : List Char := []
  trailingBreaks : List Char := []
  leadingBlank : Bool := false

/-- The text once the next line of content is known to follow. A folded scalar
joins two lines when neither starts with a blank. -/
def BlockState.joined (s : BlockState) (literal startsBlank : Bool) : List Char :=
  if !literal && s.leadingBreak == ['\n'] && !s.leadingBlank && !startsBlank then
    s.text ++ (if s.trailingBreaks.isEmpty then [' '] else []) ++ s.trailingBreaks
  else s.text ++ s.leadingBreak ++ s.trailingBreaks

def readBlockLines (literal : Bool) (indent : Nat) : Nat → BlockState → Cursor →
    Except Fault (BlockState × Cursor)
  | 0, s, c => .ok (s, c)
  | fuel + 1, s, c => do
    if c.column != indent || c.atEnd then return (s, c)
    let startsBlank := c.isSpaceAt 0
    let (line, after) := c.run fun ch => !isBreak ch
    let (leadingBreak, after) := match after.rest with
      | [] => ([], after)
      | ch :: _ => ([ch], after.next)
    let (_, breaks, after) ← readIndentation (some indent) (after.rest.length + 1) 0 [] after
    readBlockLines literal indent fuel
      { text := s.joined literal startsBlank ++ line, leadingBreak, trailingBreaks := breaks,
        leadingBlank := startsBlank } after

/-- Reads a block scalar from behind its indicator, inside a block indented by
`parent`. -/
def readBlock (literal : Bool) (parent : Int) (c : Cursor) :
    Except Fault (List Char × Cursor) := do
  let (header, c) ← readBlockHeader c
  let explicit := header.indent.map fun n => if 0 ≤ parent then parent.toNat + n else n
  let (widest, breaks, c) ← readIndentation explicit (c.rest.length + 1) 0 [] c
  let indent := explicit.getD (max widest (max (parent + 1).toNat 1))
  let (s, c) ← readBlockLines literal indent (c.rest.length + 1) { trailingBreaks := breaks } c
  let ending := match header.chomping with
    | .strip => []
    | .clip => s.leadingBreak
    | .keep => s.leadingBreak ++ s.trailingBreaks
  return (s.text ++ ending, c)

end ImagePipeline.Yaml
