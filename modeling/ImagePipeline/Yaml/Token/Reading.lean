import ImagePipeline.Yaml.Token.Directive
import ImagePipeline.Yaml.Token.Scalar

/-! From the text of a document to its tokens. Indentation becomes tokens that
open and close blocks. A mapping key is recognised only when the `:` behind it is
met, so its token, and where needed the one that opens the mapping, is put in
front of what has been read since. -/
namespace ImagePipeline.Yaml

/-- A place where a key may have started. -/
structure KeyStart where
  required : Bool
  position : Nat
  index : Nat
  line : Nat
  column : Nat

/-- The state between two tokens. `keyStarts` has one entry for the block context
and one for each open flow bracket, innermost first; `indents` are the columns of
the blocks around the current one. -/
structure Reading where
  cursor : Cursor
  tokens : Array Token := #[]
  indent : Int := -1
  indents : List Int := []
  keyAllowed : Bool := true
  keyStarts : List (Option KeyStart) := [none]

namespace Reading

def inFlow (r : Reading) : Bool := 1 < r.keyStarts.length

def line (r : Reading) : Nat := r.cursor.line

def push (r : Reading) (t : Token) : Reading := { r with tokens := r.tokens.push t }

def keyStart? (r : Reading) : Option KeyStart := r.keyStarts.head?.join

def setKeyStart (r : Reading) (k : Option KeyStart) : Reading :=
  { r with keyStarts := k :: r.keyStarts.tail }

/-- Gives up the possible key of the innermost context. -/
def dropKeyStart (r : Reading) : Except Fault Reading :=
  if r.keyStart?.any KeyStart.required then .error (.keyWithoutValue r.line)
  else .ok (r.setKeyStart none)

/-- Notes that a key may start here. -/
def saveKeyStart (r : Reading) : Except Fault Reading := do
  if !r.keyAllowed then return r
  let r ← r.dropKeyStart
  let c := r.cursor
  return r.setKeyStart (some {
    required := !r.inFlow && r.indent == c.column
    position := r.tokens.size, index := c.index, line := c.line, column := c.column })

/-- A key ends on its line and within 1024 characters of its start. -/
def KeyStart.isStale (k : KeyStart) (c : Cursor) : Bool :=
  k.line < c.line || k.index + 1024 < c.index

/-- Gives up the possible keys that have become too long. -/
def dropStale (r : Reading) : Except Fault Reading :=
  let stale (k : Option KeyStart) := k.any fun k => KeyStart.isStale k r.cursor
  if r.keyStarts.any fun k => stale k && k.any KeyStart.required then
    .error (.keyWithoutValue r.line)
  else .ok { r with keyStarts := r.keyStarts.map fun k => if stale k then none else k }

/-- Opens a block at a column to the right of the current one. The token goes to
`position` where that is given. -/
def openBlock (r : Reading) (column : Nat) (position : Option Nat) (t : Token) : Reading :=
  if r.inFlow || (column : Int) ≤ r.indent then r
  else { r with
    indents := r.indent :: r.indents
    indent := column
    tokens := match position with
      | none => r.tokens.push t
      | some i => r.tokens.insertIdxIfInBounds i t }

def closeBlocksAbove (column : Int) (tokens : Array Token) (indent : Int) :
    List Int → Array Token × Int × List Int
  | [] => (tokens, indent, [])
  | outer :: indents =>
    if column < indent then closeBlocksAbove column (tokens.push .blockEnd) outer indents
    else (tokens, indent, outer :: indents)

/-- Closes the blocks to the right of a column. -/
def closeBlocks (r : Reading) (column : Int) : Reading :=
  if r.inFlow then r
  else
    let (tokens, indent, indents) := closeBlocksAbove column r.tokens r.indent r.indents
    { r with tokens, indent, indents }

/-- Passes blanks, comments and line ends. A byte order mark may stand in front of all;
it takes a column. -/
def skipToToken : Nat → Reading → Reading
  | 0, r => r
  | fuel + 1, r =>
    let c := r.cursor
    let c := if c.index == 0 && c.sees '\ufeff' then c.next else c
    let c := c.skipRun fun ch => ch == ' ' || ((r.inFlow || !r.keyAllowed) && ch == '\t')
    let c := if c.sees '#' then c.skipToLineEnd else c
    match c.rest with
    | [] => { r with cursor := c }
    | ch :: _ =>
      if isBreak ch then
        skipToToken fuel { r with cursor := c.next, keyAllowed := r.keyAllowed || !r.inFlow }
      else { r with cursor := c }

/-- Adds a token that is `length` characters long. -/
def take (r : Reading) (t : Token) (length : Nat) : Reading :=
  { r with tokens := r.tokens.push t, cursor := r.cursor.skip length }

/-- Closes every block before something that stands outside of all. -/
def leaveBlocks (r : Reading) : Except Fault Reading := do
  let r ← (r.closeBlocks (-1)).dropKeyStart
  return { r with keyAllowed := false }

def readFlowStart (r : Reading) (t : Token) : Except Fault Reading := do
  let r ← r.saveKeyStart
  return { r.take t 1 with keyStarts := none :: r.keyStarts, keyAllowed := true }

def readFlowEnd (r : Reading) (t : Token) : Except Fault Reading := do
  let r ← r.dropKeyStart
  return { r.take t 1 with
    keyStarts := if r.inFlow then r.keyStarts.tail else r.keyStarts
    keyAllowed := false }

def readFlowEntry (r : Reading) : Except Fault Reading := do
  let r ← r.dropKeyStart
  return { r.take .flowEntry 1 with keyAllowed := true }

def readBlockEntry (r : Reading) : Except Fault Reading := do
  if !r.inFlow && !r.keyAllowed then throw (.misplacedEntry r.line)
  let r ← (r.openBlock r.cursor.column none .blockSequenceStart).dropKeyStart
  return { r.take .blockEntry 1 with keyAllowed := true }

def readKey (r : Reading) : Except Fault Reading := do
  if !r.inFlow && !r.keyAllowed then throw (.misplacedKey r.line)
  let r ← (r.openBlock r.cursor.column none .blockMappingStart).dropKeyStart
  return { r.take .key 1 with keyAllowed := !r.inFlow }

def readValue (r : Reading) : Except Fault Reading := do
  match r.keyStart? with
  | some k =>
    let r := { r with tokens := r.tokens.insertIdxIfInBounds k.position .key }
    let r := (r.openBlock k.column (some k.position) .blockMappingStart).setKeyStart none
    return { r.take .value 1 with keyAllowed := false }
  | none =>
    if !r.inFlow && !r.keyAllowed then throw (.misplacedValue r.line)
    let r := r.openBlock r.cursor.column none .blockMappingStart
    return { r.take .value 1 with keyAllowed := !r.inFlow }

/-- Adds a token that may be a key and that `read` reads. -/
def readNode (r : Reading) (read : Cursor → Except Fault (Token × Cursor)) :
    Except Fault Reading := do
  let r ← r.saveKeyStart
  let (t, c) ← read r.cursor
  return { r.push t with cursor := c, keyAllowed := false }

def readBlockScalar (r : Reading) (literal : Bool) : Except Fault Reading := do
  let r ← r.dropKeyStart
  let (text, c) ← readBlock literal r.indent r.cursor.next
  let style := if literal then ScalarStyle.literal else ScalarStyle.folded
  return { r.push (.scalar (String.ofList text) style) with cursor := c, keyAllowed := true }

def readQuotedScalar (r : Reading) (single : Bool) : Except Fault Reading :=
  r.readNode fun c => do
    let (text, c) ← readQuoted single (c.rest.length + 2) [] c.next
    let style := if single then ScalarStyle.singleQuoted else ScalarStyle.doubleQuoted
    return (.scalar (String.ofList text) style, c)

def readPlainScalar (r : Reading) : Except Fault Reading := do
  let r ← r.saveKeyStart
  let s ← readPlain r.inFlow (r.indent + 1) (r.cursor.rest.length + 1) [] {} r.cursor
  return { r.push (.scalar (String.ofList s.text) .plain) with
    cursor := s.after, keyAllowed := s.endedLine }

/-- An indicator cannot start a plain scalar, but `-`, `?` and `:` can in front of
a character that makes them part of a word. -/
def startsPlain (r : Reading) (ch : Char) : Bool :=
  let c := r.cursor
  let indicator := ['-', '?', ':', ',', '[', ']', '{', '}', '#', '&', '*', '!', '|', '>', '\'',
    '"', '%', '@', '`'].contains ch
  !(c.isBlankAt 0 || indicator) || (ch == '-' && !c.isSpaceAt 1) ||
    (!r.inFlow && (ch == '?' || ch == ':') && !c.isBlankAt 1)

/-- Reads the token at the cursor, which stands at `ch`. -/
def readToken (r : Reading) (ch : Char) : Except Fault Reading := do
  let c := r.cursor
  if c.column == 0 && ch == '%' then
    let r ← r.leaveBlocks
    let (t, c) ← readDirective r.cursor
    return { r.push t with cursor := c }
  if c.seesMark '-' then return (← r.leaveBlocks).take .documentStart 3
  if c.seesMark '.' then return (← r.leaveBlocks).take .documentEnd 3
  match ch with
  | '[' => return ← r.readFlowStart .flowSequenceStart
  | '{' => return ← r.readFlowStart .flowMappingStart
  | ']' => return ← r.readFlowEnd .flowSequenceEnd
  | '}' => return ← r.readFlowEnd .flowMappingEnd
  | ',' => return ← r.readFlowEntry
  | '*' => return ← r.readNode fun c => do
    let (name, c) ← readAnchorName c
    return (.alias name, c)
  | '&' => return ← r.readNode fun c => do
    let (name, c) ← readAnchorName c
    return (.anchor name, c)
  | '!' => return ← r.readNode (readTag r.inFlow)
  | '\'' => return ← r.readQuotedScalar true
  | '"' => return ← r.readQuotedScalar false
  | _ => pure ()
  if ch == '-' && c.isBlankAt 1 then r.readBlockEntry
  else if ch == '?' && (r.inFlow || c.isBlankAt 1) then r.readKey
  else if ch == ':' && (r.inFlow || c.isBlankAt 1) then r.readValue
  else if ch == '|' && !r.inFlow then r.readBlockScalar true
  else if ch == '>' && !r.inFlow then r.readBlockScalar false
  else if r.startsPlain ch then r.readPlainScalar
  else throw (.forbiddenStart r.line)

/-- Reads all tokens; each round passes at least one character. -/
def readAll : Nat → Reading → Except Fault Reading
  | 0, _ => .error .tooDeep
  | fuel + 1, r => do
    let r ← (r.skipToToken (r.cursor.rest.length + 1)).dropStale
    let r := r.closeBlocks r.cursor.column
    match r.cursor.rest with
    | [] => return (← r.leaveBlocks).push .streamEnd
    | ch :: _ => readAll fuel (← r.readToken ch)

end Reading

/-- The tokens of a document, the last of which is `streamEnd`. -/
def Token.ofText (s : List Char) : Except Fault (List Token) := do
  match s.find? fun c => !isAllowed c with
  | some c => throw (.forbiddenCharacter c)
  | none =>
    let r ← Reading.readAll (s.length + 2) { cursor := Cursor.ofText (normalize s) }
    return r.tokens.toList

end ImagePipeline.Yaml
