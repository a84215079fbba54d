import XPathTree.Document.Walk

/-!
# Document order

Every node has an order key: the slot of its tree's root, then for each level
downwards a marker and a position. The marker is 0 for an attribute and 1 for a
child, so that an element precedes its attributes and these precede its children.
Keys are compared lexicographically.

To sort many handles, the positions in a list of siblings are recorded when the
list is first met. `sort` shares one such record among all its keys.
-/

namespace XPathTree

/-- Positions among siblings, by slot, as far as they are recorded. -/
structure Positions where
  bySlot : Array (Option Nat)

namespace Positions

/-- A record without entries for a document of the given size. -/
def blank (size : Nat) : Positions := ⟨Array.replicate size none⟩

/-- The recorded position of a node. -/
def find? (positions : Positions) (id : NodeId) : Option Nat :=
  positions.bySlot[id.slot]?.join

/-- The record with the position of one node. -/
def insert (positions : Positions) (id : NodeId) (position : Nat) : Positions :=
  ⟨positions.bySlot.setIfInBounds id.slot (some position)⟩

/-- A recorded position is found again, as long as the slot is within the record,
and all other entries stay. -/
theorem find?_insert (positions : Positions) (id : NodeId) (position : Nat)
    (other : NodeId) :
    (positions.insert id position).find? other =
      if id = other ∧ other.slot < positions.bySlot.size then some position
      else positions.find? other := by
  obtain ⟨slot⟩ := id
  obtain ⟨otherSlot⟩ := other
  simp only [insert, find?, Array.getElem?_setIfInBounds, NodeId.mk.injEq]
  by_cases heq : slot = otherSlot
  · subst heq
    by_cases hlt : slot < positions.bySlot.size <;> simp [hlt]
  · simp [heq]

/-- The record with the positions of all nodes of a list. -/
def insertAll (positions : Positions) (siblings : List NodeId) : Positions :=
  siblings.zipIdx.foldl (fun positions entry => positions.insert entry.1 entry.2) positions

end Positions

namespace Document

/-- The list that a node is in under its parent, with the marker of that list. -/
def siblings (doc : Document) (id parent : NodeId) : Nat × List NodeId :=
  if doc.nodeType? id = some .attribute then (0, doc.attributes parent)
  else (1, doc.children parent)

/-- The order key of a node, in front of the key of a path below it. -/
def orderKeyAbove (doc : Document) : (bound : Nat) → NodeId → List Nat → List Nat
  | 0, id, below => id.slot :: below
  | bound + 1, id, below =>
    match doc.parent? id with
    | none => id.slot :: below
    | some parent =>
      let (marker, list) := doc.siblings id parent
      doc.orderKeyAbove bound parent (marker :: (list.idxOf? id).getD 0 :: below)

/-- The order key of a node. -/
def orderKey (doc : Document) (id : NodeId) : List Nat :=
  doc.orderKeyAbove doc.size id []

/-- As `orderKeyAbove`, with positions taken from a record. A list of siblings is
recorded when the position of one of them is missing. -/
def recordedKeyAbove (doc : Document) :
    (bound : Nat) → NodeId → List Nat → Positions → List Nat × Positions
  | 0, id, below, positions => (id.slot :: below, positions)
  | bound + 1, id, below, positions =>
    match doc.parent? id with
    | none => (id.slot :: below, positions)
    | some parent =>
      let (marker, list) := doc.siblings id parent
      let positions :=
        if (positions.find? id).isSome then positions else positions.insertAll list
      doc.recordedKeyAbove bound parent
        (marker :: (positions.find? id).getD 0 :: below) positions

/-- The order keys of several nodes over one shared record of positions. -/
def recordedKeys (doc : Document) : List NodeId → Positions → List (List Nat × NodeId)
  | [], _ => []
  | id :: ids, positions =>
    let (key, positions) := doc.recordedKeyAbove doc.size id [] positions
    (key, id) :: doc.recordedKeys ids positions

/-- The order of handles with their keys; equal keys are ordered by slot. -/
def keyedLe (a b : List Nat × NodeId) : Bool :=
  ((compare a.1 b.1).then (compare a.2.slot b.2.slot)).isLE

/-- A list without the elements that equal the one before them. -/
def dropRepeats : List NodeId → List NodeId
  | [] => []
  | [id] => [id]
  | a :: b :: ids => if a = b then dropRepeats (b :: ids) else a :: dropRepeats (b :: ids)

/-- The handles of a list in document order, each once. -/
def sort (doc : Document) (ids : List NodeId) : List NodeId :=
  if ids.length < 2 then ids
  else
    let keyed := doc.recordedKeys ids (.blank doc.size)
    dropRepeats ((keyed.mergeSort keyedLe).map (·.2))

end Document

end XPathTree
