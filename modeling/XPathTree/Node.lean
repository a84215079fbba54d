import XPathTree.QName
import XPathTree.DataBlock

/-!
# Nodes

A document stores its nodes in numbered slots and refers to them by handle. A
stored node has its payload, the handle of its parent if it has one, and the
handles of its children in order. Attributes are listed in the payload of their
element: the element is their parent, but they are not among its children.
-/

namespace XPathTree

/-- The handle of a node: the number of its slot. -/
structure NodeId where
  slot : Nat
  deriving DecidableEq

/-- A handle as it is shown in messages. -/
def NodeId.label (id : NodeId) : String := "#" ++ toString id.slot

/-- The six types of nodes. -/
inductive NodeType where
  | document
  | element
  | text
  | comment
  | instruction
  | attribute
  deriving DecidableEq

namespace NodeType

/-- Documents and elements have content; all other nodes are leaves. -/
def isBranch : NodeType → Bool
  | .document | .element => true
  | .text | .comment | .instruction | .attribute => false

/-- The name of a node type. -/
def label : NodeType → String
  | .document => "Document"
  | .element => "Element"
  | .text => "Text"
  | .comment => "Comment"
  | .instruction => "ProcessingInstruction"
  | .attribute => "Attribute"

end NodeType

/-- What a node is, apart from its place in a tree. -/
inductive NodeKind where
  | document
  | element (name : QName) (attributes : List NodeId)
  | text (content : String)
  | comment (content : String)
  | instruction (target : String) (data : DataBlock)
  | attribute (name : QName) (value : String)
  deriving DecidableEq

namespace NodeKind

/-- The type of a node. -/
def nodeType : NodeKind → NodeType
  | .document => .document
  | .element .. => .element
  | .text .. => .text
  | .comment .. => .comment
  | .instruction .. => .instruction
  | .attribute .. => .attribute

/-- The name of an element or an attribute. -/
def name? : NodeKind → Option QName
  | .element name _ | .attribute name _ => some name
  | _ => none

/-- The target of a processing instruction. -/
def target? : NodeKind → Option String
  | .instruction target _ => some target
  | _ => none

/-- The attributes of an element, in order; no other node has any. -/
def attributes : NodeKind → List NodeId
  | .element _ attributes => attributes
  | _ => []

/-- The characters of a text node. -/
def text? : NodeKind → Option String
  | .text content => some content
  | _ => none

end NodeKind

/-- A stored node. -/
structure Node where
  kind : NodeKind
  parent : Option NodeId
  children : List NodeId
  deriving DecidableEq

/-- A node that stands alone. -/
def Node.detached (kind : NodeKind) : Node := ⟨kind, none, []⟩

end XPathTree
