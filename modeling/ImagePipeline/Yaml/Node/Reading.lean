import ImagePipeline.Yaml.Fault
import ImagePipeline.Yaml.Node
import ImagePipeline.Yaml.Token.Reading

/-! From tokens to the tree of a document. -/
namespace ImagePipeline.Yaml

/-- The tokens not yet read and what the document has declared so far. -/
structure Outline where
  tokens : List Token
  handles : List (String × String) := []
  anchors : List (String × Nat) := []
  marks : Nat := 0
  marked : List MarkedNode := []

abbrev Assembly := StateT Outline (Except Fault)

namespace Assembly

def peek : Assembly Token := do
  return (← get).tokens.head?.getD .streamEnd

def drop : Assembly Unit := modify fun o => { o with tokens := o.tokens.tail }

/-- The empty value that stands where a node is missing. -/
def missing : Node := .plain ""

def expandTag (handle suffix : String) : Assembly String := do
  if handle.isEmpty then return suffix
  match (← get).handles.lookup handle with
  | some leader => return leader ++ suffix
  | none => throw (.undefinedHandle handle)

structure Properties where
  anchor : Option String := none
  tag : Option String := none

def readAnchorAfter (p : Properties) : Assembly Properties := do
  match ← peek with
  | .anchor name => drop; return { p with anchor := some name }
  | _ => return p

def readTagAfter (p : Properties) : Assembly Properties := do
  match ← peek with
  | .tag handle suffix => drop; return { p with tag := ← expandTag handle suffix }
  | _ => return p

/-- An anchor and a tag in either order. -/
def properties : Assembly Properties := do
  match ← peek with
  | .anchor _ => readTagAfter (← readAnchorAfter {})
  | .tag _ _ => readAnchorAfter (← readTagAfter {})
  | _ => return {}

/-- Gives an anchor its number: as many as there are different names before it. -/
def declare (name : String) : Assembly MarkedNode := do
  let o ← get
  let anchor := (o.anchors.map Prod.fst).eraseDups.length
  set { o with anchors := (name, anchor) :: o.anchors, marks := o.marks + 1 }
  return ⟨anchor, o.marks, missing⟩

def mark (anchor : Option MarkedNode) (node : Node) : Assembly Node := do
  match anchor with
  | none => return node
  | some m =>
    modify fun o => { o with marked := { m with node } :: o.marked }
    return node

/-- The tokens after which a part of a block mapping is missing. -/
def endsBlockPart : Token → Bool
  | .key | .value | .blockEnd => true
  | _ => false

mutual

/-- A node in block context, where `block` allows block collections and `indentless`
a sequence at the column of its key. -/
def node (block indentless : Bool) : Nat → Assembly Node
  | 0 => throw .tooDeep
  | fuel + 1 => do
    if let .alias name ← peek then
      drop
      match (← get).anchors.lookup name with
      | some anchor => return .alias anchor
      | none => throw (.undefinedAlias name)
    let p ← properties
    let anchor ← p.anchor.mapM declare
    match ← peek with
    | .scalar text style => drop; mark anchor (.scalar text style p.tag)
    | .flowSequenceStart => drop; mark anchor (.sequence (← flowItems fuel true))
    | .flowMappingStart => drop; mark anchor (.mapping (← flowEntries fuel true))
    | .blockSequenceStart =>
      if !block then throw .unexpectedToken
      drop; mark anchor (.sequence (← blockItems fuel))
    | .blockMappingStart =>
      if !block then throw .unexpectedToken
      drop; mark anchor (.mapping (← blockEntries fuel))
    | .blockEntry =>
      if indentless then mark anchor (.sequence (← indentlessItems fuel))
      else if p.anchor.isSome || p.tag.isSome then mark anchor (.scalar "" .plain p.tag)
      else throw .unexpectedToken
    | _ =>
      if p.anchor.isSome || p.tag.isSome then mark anchor (.scalar "" .plain p.tag)
      else throw .unexpectedToken

def blockItems : Nat → Assembly (List Node)
  | 0 => throw .tooDeep
  | fuel + 1 => do
    match ← peek with
    | .blockEntry =>
      drop
      let item ← match ← peek with
        | .blockEntry | .blockEnd => pure missing
        | _ => node true false fuel
      return item :: (← blockItems fuel)
    | .blockEnd => drop; return []
    | _ => throw .unexpectedToken

def indentlessItems : Nat → Assembly (List Node)
  | 0 => throw .tooDeep
  | fuel + 1 => do
    match ← peek with
    | .blockEntry =>
      drop
      let next ← peek
      let item ←
        if next == .blockEntry || endsBlockPart next then pure missing
        else node true false fuel
      return item :: (← indentlessItems fuel)
    | _ => return []

def blockEntries : Nat → Assembly (List (Node × Node))
  | 0 => throw .tooDeep
  | fuel + 1 => do
    match ← peek with
    | .key =>
      drop
      let key ← blockPart fuel
      let value ← match ← peek with
        | .value => drop; blockPart fuel
        | _ => pure missing
      return (key, value) :: (← blockEntries fuel)
    | .blockEnd => drop; return []
    | _ => throw .unexpectedToken

/-- The key or the value of an entry of a block mapping. -/
def blockPart : Nat → Assembly Node
  | 0 => throw .tooDeep
  | fuel + 1 => do
    if endsBlockPart (← peek) then return missing
    node true true fuel

def flowItems : Nat → Bool → Assembly (List Node)
  | 0, _ => throw .tooDeep
  | fuel + 1, first => do
    if (← peek) == .flowSequenceEnd then
      drop
      return []
    if !first then
      if (← peek) != .flowEntry then throw .unexpectedToken
      drop
    match ← peek with
    | .flowSequenceEnd => drop; return []
    | .key =>
      drop
      let entry ← flowPair fuel
      return .mapping [entry] :: (← flowItems fuel false)
    | _ =>
      let item ← node false false fuel
      return item :: (← flowItems fuel false)

/-- The single entry of a mapping without brackets inside a flow sequence. A
missing key passes the token that shows that it is missing. -/
def flowPair : Nat → Assembly (Node × Node)
  | 0 => throw .tooDeep
  | fuel + 1 => do
    let key ← match ← peek with
      | .value | .flowEntry | .flowSequenceEnd => drop; pure missing
      | _ => node false false fuel
    match ← peek with
    | .value =>
      drop
      match ← peek with
      | .flowEntry | .flowSequenceEnd => return (key, missing)
      | _ => return (key, ← node false false fuel)
    | _ => return (key, missing)

def flowEntries : Nat → Bool → Assembly (List (Node × Node))
  | 0, _ => throw .tooDeep
  | fuel + 1, first => do
    if (← peek) == .flowMappingEnd then
      drop
      return []
    if !first then
      if (← peek) != .flowEntry then throw .unexpectedToken
      drop
    match ← peek with
    | .flowMappingEnd => drop; return []
    | .key =>
      drop
      let key ← flowPart fuel
      let value ← match ← peek with
        | .value => drop; flowPart fuel
        | _ => pure missing
      return (key, value) :: (← flowEntries fuel false)
    | _ =>
      let key ← node false false fuel
      return (key, missing) :: (← flowEntries fuel false)

/-- The key or the value of an entry of a flow mapping. -/
def flowPart : Nat → Assembly Node
  | 0 => throw .tooDeep
  | fuel + 1 => do
    match ← peek with
    | .value | .flowEntry | .flowMappingEnd => return missing
    | _ => node false false fuel

end

/-- Reads the directives before a document. -/
def directives : Nat → Bool → Assembly Unit
  | 0, _ => throw .tooDeep
  | fuel + 1, versionSeen => do
    match ← peek with
    | .versionDirective major minor =>
      if versionSeen then throw .repeatedDirective
      if major != 1 || (minor != 1 && minor != 2) then throw .unsupportedVersion
      drop
      directives fuel true
    | .tagDirective handle leader =>
      if ((← get).handles.lookup handle).isSome then throw .repeatedDirective
      drop
      modify fun o => { o with handles := (handle, leader) :: o.handles }
      directives fuel versionSeen
    | _ => return ()

/-- Handles that need no directive; one that a directive declares comes first. -/
def standardHandles : List (String × String) := [("!", "!"), ("!!", "tag:yaml.org,2002:")]

/-- The content of a document that a document mark starts. -/
def markedContent (fuel : Nat) : Assembly Node := do
  match ← peek with
  | .versionDirective _ _ | .tagDirective _ _ | .documentStart | .documentEnd | .streamEnd =>
    return missing
  | _ => node true false fuel

def dropDocumentEnds : Nat → Assembly Unit
  | 0 => return ()
  | fuel + 1 => do
    if (← peek) == .documentEnd then
      drop
      dropDocumentEnds fuel

/-- The root of the only document. -/
def root (fuel : Nat) : Assembly (Option Node) := do
  match ← peek with
  | .streamEnd => return none
  | .versionDirective _ _ | .tagDirective _ _ | .documentStart =>
    directives fuel false
    modify fun o => { o with handles := o.handles ++ standardHandles }
    if (← peek) != .documentStart then throw .unexpectedToken
    drop
    let n ← markedContent fuel
    dropDocumentEnds fuel
    if (← peek) != .streamEnd then throw .severalDocuments
    return some n
  | _ =>
    modify fun o => { o with handles := standardHandles }
    let n ← node true false fuel
    dropDocumentEnds fuel
    if (← peek) != .streamEnd then throw .severalDocuments
    return some n

end Assembly

namespace Document

def ofTokens (tokens : List Token) : Except Fault Document := do
  let (root, outline) ← (Assembly.root (3 * tokens.length + 8)).run { tokens }
  return { root, marked := outline.marked }

/-- Reads the text of a document. -/
def ofText (s : String) : Except Fault Document := do
  ofTokens (← Token.ofText s.toList)

end Document

end ImagePipeline.Yaml
