import XPathTree.Document.Basic

/-!
# Walking the tree

Upwards a walk follows the parents; downwards it keeps the handles still to be
visited, replacing each by its children. Neither visits more nodes than there
are slots, which bounds both walks.
-/

namespace XPathTree.Document

/-- At most `bound` ancestors of a node, nearest first. -/
def climb (doc : Document) : (bound : Nat) → NodeId → List NodeId
  | 0, _ => []
  | bound + 1, id =>
    match doc.parent? id with
    | none => []
    | some parent => parent :: doc.climb bound parent

/-- The ancestors of a node, nearest first. -/
def ancestors (doc : Document) (id : NodeId) : List NodeId := doc.climb doc.size id

/-- At most `bound` nodes of the subtrees that hang at the pending handles, each
node before its children. -/
def visit (doc : Document) : (bound : Nat) → (pending : List NodeId) → List NodeId
  | 0, _ => []
  | _, [] => []
  | bound + 1, id :: pending => id :: doc.visit bound (doc.children id ++ pending)

/-- The descendants of a node, each before its own descendants. Attributes are
not among them. -/
def descendants (doc : Document) (id : NodeId) : List NodeId :=
  doc.visit doc.size (doc.children id)

/-- A node and its descendants. -/
def subtree (doc : Document) (id : NodeId) : List NodeId := id :: doc.descendants id

/-- The outermost ancestor of a node, or the node itself if it has no parent. -/
def treeRoot (doc : Document) (id : NodeId) : NodeId :=
  (doc.ancestors id).getLast?.getD id

/-- Whether `candidate` is `id` or one of its ancestors. -/
def isAncestorOrSelf (doc : Document) (candidate id : NodeId) : Bool :=
  candidate == id || (doc.ancestors id).contains candidate

/-- The characters of all text nodes below a node, in order. -/
def textBelow (doc : Document) (id : NodeId) : String :=
  String.join ((doc.descendants id).filterMap fun d => (doc.kind? d).bind (·.text?))

/-- The string-value of a node: the text below a branch, the content of a text or
comment, the value of an attribute, the data of a processing instruction. -/
def stringValue? (doc : Document) (id : NodeId) : Option String :=
  (doc.kind? id).map fun
    | .document | .element .. => doc.textBelow id
    | .text content | .comment content => content
    | .instruction _ data => data.text
    | .attribute _ value => value

/-- The string-value of a node; empty for a handle without a slot. -/
def stringValue (doc : Document) (id : NodeId) : String :=
  (doc.stringValue? id).getD ""

end XPathTree.Document
