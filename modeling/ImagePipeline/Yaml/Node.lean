import ImagePipeline.Yaml.Token

/-! The tree of a document. An alias holds the number of the anchor that it
names; a document keeps the marked nodes, so that a node may also be reached from
inside itself. -/
namespace ImagePipeline.Yaml

inductive Node where
  | scalar (text : String) (style : ScalarStyle) (tag : Option String)
  | sequence (items : List Node)
  | mapping (entries : List (Node × Node))
  | alias (anchor : Nat)
  deriving Repr, Inhabited

/-- A node that an anchor marks; `order` counts the anchors of the document. -/
structure MarkedNode where
  anchor : Nat
  order : Nat
  node : Node
  deriving Repr, Inhabited

structure Document where
  /-- A text without any node has none. -/
  root : Option Node
  marked : List MarkedNode := []
  deriving Repr, Inhabited

namespace Document

/-- Of the nodes marked by one anchor number, the last to start counts. -/
def latest (anchor : Nat) : List MarkedNode → Option MarkedNode
  | [] => none
  | m :: rest =>
    match latest anchor rest with
    | some n => if m.anchor == anchor && n.order < m.order then some m else some n
    | none => if m.anchor == anchor then some m else none

/-- The node itself, or the one that an alias stands for. -/
def resolve (d : Document) : Node → Option Node
  | .alias anchor => (latest anchor d.marked).map MarkedNode.node
  | node => some node

end Document

namespace Node

def text (s : String) : Node := .scalar s .doubleQuoted none

def plain (s : String) : Node := .scalar s .plain none

/-- An empty value, as after a key with nothing behind it. -/
def isEmptyValue : Node → Bool
  | .scalar text .plain _ => text.isEmpty
  | _ => false

end Node

end ImagePipeline.Yaml
