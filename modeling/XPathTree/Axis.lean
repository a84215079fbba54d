import XPathTree.Document.Walk

/-!
# Axes

The twelve directions in which a step looks for nodes. An axis lists its nodes in
document order, from each node of every type: attributes have a parent and
ancestors but no siblings, what follows one starts with the descendants of its
element, and what precedes it is what precedes its element.
-/

namespace XPathTree

/-- A direction from a node. -/
inductive Axis where
  | child
  | descendant
  | descendantOrSelf
  | attribute
  | parent
  | ancestor
  | ancestorOrSelf
  | self
  | followingSibling
  | precedingSibling
  | following
  | preceding
  deriving DecidableEq

/-- The axes on which positions are counted against document order. -/
def Axis.isReverse : Axis → Bool
  | .ancestor | .ancestorOrSelf | .preceding | .precedingSibling => true
  | _ => false

/-- The type of nodes that a name on an axis stands for. -/
def Axis.principal : Axis → NodeType
  | .attribute => .attribute
  | _ => .element

namespace Document

/-- The siblings in front of a node and those behind it. Attributes, and nodes
without a parent, are in no list of siblings. -/
def splitSiblings? (doc : Document) (id : NodeId) : Option (List NodeId × List NodeId) :=
  if doc.nodeType? id = some .attribute then none
  else do
    let parent ← doc.parent? id
    let index ← (doc.children parent).idxOf? id
    some ((doc.children parent).take index, (doc.children parent).drop (index + 1))

/-- The siblings around a node, around its parent and so on upwards, for `bound`
levels at the most. -/
def levels (doc : Document) : (bound : Nat) → NodeId → List (List NodeId × List NodeId)
  | 0, _ => []
  | bound + 1, id =>
    match doc.splitSiblings? id, doc.parent? id with
    | some split, some parent => split :: doc.levels bound parent
    | _, _ => []

/-- The subtrees behind a node: nearer levels come first. -/
def subtreesBehind (doc : Document) (id : NodeId) : List NodeId :=
  (doc.levels doc.size id).flatMap fun split => split.2.flatMap doc.subtree

/-- The subtrees in front of a node: outer levels come first. -/
def subtreesInFront (doc : Document) (id : NodeId) : List NodeId :=
  (doc.levels doc.size id).reverse.flatMap fun split => split.1.flatMap doc.subtree

/-- The nodes after a node that are not below it. -/
def following (doc : Document) (id : NodeId) : List NodeId :=
  if doc.nodeType? id = some .attribute then
    match doc.parent? id with
    | some element => doc.descendants element ++ doc.subtreesBehind element
    | none => []
  else doc.subtreesBehind id

/-- The nodes before a node that are not above it. -/
def preceding (doc : Document) (id : NodeId) : List NodeId :=
  if doc.nodeType? id = some .attribute then
    match doc.parent? id with
    | some element => doc.subtreesInFront element
    | none => []
  else doc.subtreesInFront id

/-- The nodes on an axis of a node, in document order. -/
def axis (doc : Document) (axis : Axis) (id : NodeId) : List NodeId :=
  match axis with
  | .child => doc.children id
  | .descendant => doc.descendants id
  | .descendantOrSelf => doc.subtree id
  | .attribute => doc.attributes id
  | .parent => (doc.parent? id).toList
  | .ancestor => (doc.ancestors id).reverse
  | .ancestorOrSelf => (doc.ancestors id).reverse ++ [id]
  | .self => [id]
  | .followingSibling => ((doc.splitSiblings? id).map (·.2)).getD []
  | .precedingSibling => ((doc.splitSiblings? id).map (·.1)).getD []
  | .following => doc.following id
  | .preceding => doc.preceding id

end Document

end XPathTree
