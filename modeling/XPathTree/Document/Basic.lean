import XPathTree.Node

/-!
# Documents

A document is a sequence of slots that only grows. Slot 0 holds the document
node; every other node is created detached, in the next free slot, and linked
into a tree afterwards. Asking for anything of a handle without a slot gives the
neutral answer: no type, no parent, no children.
-/

namespace XPathTree

/-- A document: its nodes by slot. -/
structure Document where
  nodes : Array Node
  deriving DecidableEq

namespace Document

/-- The document that holds only its document node. -/
def empty : Document := ⟨#[.detached .document]⟩

/-- The document node. -/
def root : NodeId := ⟨0⟩

/-- The number of slots in use. -/
def size (doc : Document) : Nat := doc.nodes.size

/-- A handle belongs to a document when its slot is in use. -/
instance : Membership NodeId Document := ⟨fun doc id => id.slot < doc.size⟩

instance (id : NodeId) (doc : Document) : Decidable (id ∈ doc) :=
  inferInstanceAs (Decidable (id.slot < doc.size))

/-! ## Reading -/

/-- The node in the slot of a handle. -/
def node? (doc : Document) (id : NodeId) : Option Node := doc.nodes[id.slot]?

/-- The payload of a node. -/
def kind? (doc : Document) (id : NodeId) : Option NodeKind := (doc.node? id).map (·.kind)

/-- The type of a node. -/
def nodeType? (doc : Document) (id : NodeId) : Option NodeType :=
  (doc.kind? id).map (·.nodeType)

/-- The parent of a node; the document node and detached nodes have none. -/
def parent? (doc : Document) (id : NodeId) : Option NodeId :=
  (doc.node? id).bind (·.parent)

/-- The children of a node, in order. -/
def children (doc : Document) (id : NodeId) : List NodeId :=
  ((doc.node? id).map (·.children)).getD []

/-- The attributes of a node, in order. -/
def attributes (doc : Document) (id : NodeId) : List NodeId :=
  ((doc.kind? id).map (·.attributes)).getD []

/-- The name of an element or an attribute. -/
def name? (doc : Document) (id : NodeId) : Option QName := (doc.kind? id).bind (·.name?)

/-- The target of a processing instruction. -/
def target? (doc : Document) (id : NodeId) : Option String :=
  (doc.kind? id).bind (·.target?)

/-- The value of a node, if it is an attribute of the given name. -/
def attributeNamed? (doc : Document) (name : QName) (id : NodeId) : Option String :=
  match doc.kind? id with
  | some (.attribute found value) => if found.denotesSame name then some value else none
  | _ => none

/-- The value of the first attribute of a node with the given written name. -/
def attribute? (doc : Document) (id : NodeId) (lexical : String) : Option String :=
  (doc.attributes id).findSome? (doc.attributeNamed? (.ofLexical lexical))

/-- The first element among the children of a node. -/
def elementChild? (doc : Document) (id : NodeId) : Option NodeId :=
  (doc.children id).find? fun child => doc.nodeType? child == some .element

/-- The root element: the element child of the document node. -/
def rootElement? (doc : Document) : Option NodeId := doc.elementChild? root

/-- A handle belongs to a document when its slot holds a node. -/
theorem mem_iff_isSome_node? {doc : Document} {id : NodeId} :
    id ∈ doc ↔ (doc.node? id).isSome = true := by
  simp [Membership.mem, size, node?]

/-! ## Creating nodes -/

/-- The handle that the next created node gets. -/
def next (doc : Document) : NodeId := ⟨doc.size⟩

/-- Creates a detached node. -/
def create (doc : Document) (kind : NodeKind) : NodeId × Document :=
  (doc.next, ⟨doc.nodes.push (.detached kind)⟩)

/-- The handles of the next `count` slots after the next one. -/
def nextHandles (doc : Document) (count : Nat) : List NodeId :=
  (List.range count).map fun i => ⟨doc.size + 1 + i⟩

/-- Creates a detached element, followed by its attributes in order. -/
def createElement (doc : Document) (name : QName) (attributes : List (QName × String)) :
    NodeId × Document :=
  let element : Node := .detached (.element name (doc.nextHandles attributes.length))
  let attributeNodes := attributes.map fun (attributeName, value) =>
    ({ kind := .attribute attributeName value
       parent := some doc.next
       children := [] } : Node)
  (doc.next, ⟨doc.nodes.push element ++ attributeNodes⟩)

/-! ## Links -/

/-- The document with one node changed. -/
def modify (doc : Document) (id : NodeId) (change : Node → Node) : Document :=
  ⟨doc.nodes.modify id.slot change⟩

@[simp] theorem size_modify (doc : Document) (id : NodeId) (change : Node → Node) :
    (doc.modify id change).size = doc.size := by
  simp [modify, size]

/-- A change of one node leaves all others as they were. -/
theorem node?_modify (doc : Document) (id : NodeId) (change : Node → Node)
    (other : NodeId) :
    (doc.modify id change).node? other =
      if id = other then (doc.node? other).map change else doc.node? other := by
  obtain ⟨slot⟩ := id
  obtain ⟨otherSlot⟩ := other
  simp only [modify, node?, Array.getElem?_modify, NodeId.mk.injEq]

/-- The document with another parent for a node. -/
def setParent (doc : Document) (parent : Option NodeId) (id : NodeId) : Document :=
  doc.modify id fun node => { node with parent }

/-- The document with another parent for each of several nodes. -/
def setParents (doc : Document) (parent : Option NodeId) (ids : List NodeId) : Document :=
  ids.foldl (fun doc id => doc.setParent parent id) doc

/-- The document with another list of children for a node. -/
def setChildren (doc : Document) (id : NodeId) (children : List NodeId) : Document :=
  doc.modify id fun node => { node with children }

end Document

end XPathTree
