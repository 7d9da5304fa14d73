import ImagePipeline.Text.Digits
import ImagePipeline.Yaml.Cursor
import ImagePipeline.Yaml.Fault
import ImagePipeline.Yaml.Token

/-! Directives, tags and anchors. -/
namespace ImagePipeline.Yaml

/-- One to nine digits. -/
def readVersionPart (c : Cursor) : Except Fault (Nat × Cursor) :=
  let (digits, after) := c.run Char.isDigit
  if 9 < digits.length then .error (.malformedDirective c.line)
  else match Text.decimal? digits with
    | some n => .ok (n, after)
    | none => .error (.malformedDirective c.line)

/-- A handle is `!`, word characters, and `!` again. In a tag the second mark may
be missing; a directive allows this of the handle `!` alone. -/
def readTagHandle (inDirective : Bool) (c : Cursor) : Except Fault (List Char × Cursor) :=
  if !c.sees '!' then .error (.malformedTag c.line)
  else
    let (name, after) := c.next.run isWordChar
    if after.sees '!' then .ok ('!' :: name ++ ['!'], after.next)
    else if inDirective && !name.isEmpty then .error (.malformedTag c.line)
    else .ok ('!' :: name, after)

def isTagChar (wide : Bool) (c : Char) : Bool :=
  isWordChar c || [';', '/', '?', ':', '@', '&', '=', '+', '$', '.', '%', '!', '~', '*', '\'',
    '(', ')'].contains c || (wide && (c == ',' || c == '[' || c == ']'))

/-- The byte written by `%` and two digits. -/
def readTagByte (c : Cursor) : Except Fault (UInt8 × Cursor) :=
  match c.rest with
  | '%' :: high :: low :: _ =>
    match Text.natural? 16 [high, low] with
    | some n => .ok (n.toUInt8, c.skip 3)
    | none => .error (.malformedTag c.line)
  | _ => .error (.malformedTag c.line)

def byteCount? (lead : UInt8) : Option Nat :=
  if lead < 0x80 then some 1
  else if lead &&& 0xE0 == 0xC0 then some 2
  else if lead &&& 0xF0 == 0xE0 then some 3
  else if lead &&& 0xF8 == 0xF0 then some 4
  else none

def readTagTail : Nat → Nat → Cursor → Except Fault (Nat × Cursor)
  | 0, value, c => .ok (value, c)
  | count + 1, value, c => do
    let (byte, after) ← readTagByte c
    if byte &&& 0xC0 != 0x80 then throw (.malformedTag c.line)
    readTagTail count (value * 64 + byte.toNat % 64) after

/-- One character written as escaped bytes of UTF-8. -/
def readTagEscape (c : Cursor) : Except Fault (Char × Cursor) := do
  let (lead, after) ← readTagByte c
  match byteCount? lead with
  | none => throw (.malformedTag c.line)
  | some 1 => return (Char.ofNat lead.toNat, after)
  | some count =>
    let (value, after) ← readTagTail (count - 1) (lead.toNat % Nat.pow 2 (7 - count)) after
    return (Char.ofNat value, after)

def readTagText (wide : Bool) : Nat → List Char → Cursor → Except Fault (List Char × Cursor)
  | 0, acc, c => .ok (acc.reverse, c)
  | fuel + 1, acc, c =>
    match c.rest with
    | [] => .ok (acc.reverse, c)
    | ch :: _ =>
      if !isTagChar wide ch then .ok (acc.reverse, c)
      else if ch == '%' then do
        let (decoded, c) ← readTagEscape c
        readTagText wide fuel (decoded :: acc) c
      else readTagText wide fuel (ch :: acc) c.next

def readTagSuffix (wide : Bool) (acc : List Char) (c : Cursor) :
    Except Fault (List Char × Cursor) :=
  readTagText wide (c.rest.length + 1) acc.reverse c

/-- Reads a tag at its `!`. -/
def readTag (inFlow : Bool) (c : Cursor) : Except Fault (Token × Cursor) := do
  let (handle, suffix, after) ←
    if c.ahead? 1 == some '<' then do
      let (suffix, after) ← readTagSuffix true [] (c.skip 2)
      if suffix.isEmpty || !after.sees '>' then throw (.malformedTag c.line)
      pure ([], suffix, after.next)
    else do
      let (handle, after) ← readTagHandle false c
      if 1 < handle.length && handle.getLast? == some '!' then
        let (suffix, after) ← readTagSuffix false [] after
        if suffix.isEmpty then throw (.malformedTag c.line)
        pure (handle, suffix, after)
      else
        let (suffix, after) ← readTagSuffix false handle.tail after
        if suffix.isEmpty then pure ([], ['!'], after) else pure (['!'], suffix, after)
  if !(inFlow && after.sees ',') && !after.isBlankAt 0 then throw (.malformedTag c.line)
  return (.tag (String.ofList handle) (String.ofList suffix), after)

/-- Reads the name of an anchor or alias behind its indicator. -/
def readAnchorName (c : Cursor) : Except Fault (String × Cursor) :=
  let (name, after) := c.next.run isWordChar
  let endsWell := after.isBlankAt 0 ||
    after.rest.head?.any (['?', ':', ',', ']', '}', '%', '@', '`'].contains ·)
  if name.isEmpty || !endsWell then .error (.malformedAnchor c.line)
  else .ok (String.ofList name, after)

/-- Reads a directive at its `%`, with the line end. -/
def readDirective (c : Cursor) : Except Fault (Token × Cursor) := do
  let fault := Fault.malformedDirective c.line
  let (name, after) := c.next.run isWordChar
  if !after.isBlankAt 0 then throw fault
  let (token, after) ←
    if name == "YAML".toList then do
      let (major, after) ← readVersionPart after.skipSpaces
      if !after.sees '.' then throw fault
      let (minor, after) ← readVersionPart after.next
      pure (Token.versionDirective major minor, after)
    else if name == "TAG".toList then do
      let (handle, after) ← readTagHandle true after.skipSpaces
      if !after.isSpaceAt 0 then throw fault
      let (leader, after) ← readTagSuffix true [] after.skipSpaces
      if leader.isEmpty || !after.isBlankAt 0 then throw fault
      pure (Token.tagDirective (String.ofList handle) (String.ofList leader), after)
    else throw fault
  let after := after.skipSpaces
  let after := if after.sees '#' then after.skipToLineEnd else after
  match after.rest with
  | [] => return (token, after)
  | ch :: _ => if isBreak ch then return (token, after.next) else throw fault

end ImagePipeline.Yaml
