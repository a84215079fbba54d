import Mathlib.Data.PFun
import XPathTree.Proofs.Document.Invariant
import XPathTree.Proofs.Document.Sorting

/-!
# Walks without a bound

The walks of the tree stop at a bound, and asking a handle without a slot gives a neutral
answer. Here they are written as the loops they stand for, as partial functions: without a
bound, and with nothing to be read from a slot that is not in use. So a loop has a result only
if it ends and reads nothing but slots in use.

In a well-formed document all loops have results, those of the bounded walks. Upwards, each
turn gets nearer to the root. Downwards, the handles that were visited or are pending stay
distinct: a child that was met before would have been entered from the parent that is only
now being visited (`Frontier`). As there are no more distinct handles than slots, the
pending ones run out.
-/

namespace XPathTree.Document

variable {doc : Document} {id parent top : NodeId} {node : Node}
variable {visited pending found : List NodeId}

/-! ## Loops -/

/-- Reading a slot, from which there is nothing to be read if it is not in use. -/
def read (doc : Document) (id : NodeId) : Part Node := .ofOption (doc.node? id)

/-- The loop over the ancestors: those found, and the next one. -/
def climbLoop (doc : Document) : List NodeId × Option NodeId →. List NodeId :=
  PFun.fix fun
    | (found, none) => .some (.inl found)
    | (found, some current) => do
      let node ← doc.read current
      return .inr (found ++ [current], node.parent)

/-- The ancestors of a node, nearest first. -/
def readAncestors (doc : Document) (id : NodeId) : Part (List NodeId) := do
  let node ← doc.read id
  doc.climbLoop ([], node.parent)

/-- The outermost ancestor of a node, or the node itself if it has no parent. -/
def readTreeRoot (doc : Document) (id : NodeId) : Part NodeId := do
  let ancestors ← doc.readAncestors id
  return ancestors.getLast?.getD id

/-- The loop over the descendants: those found, and the pending handles. -/
def visitLoop (doc : Document) : List NodeId × List NodeId →. List NodeId :=
  PFun.fix fun
    | (found, []) => .some (.inl found)
    | (found, current :: pending) => do
      let node ← doc.read current
      return .inr (found ++ [current], node.children ++ pending)

/-- The descendants of a node, each before its own descendants. -/
def readDescendants (doc : Document) (id : NodeId) : Part (List NodeId) := do
  let node ← doc.read id
  doc.visitLoop ([], node.children)

/-- The loop that builds an order key: a node, the key of the path below it, and the positions
recorded so far. -/
def keyLoop (doc : Document) : NodeId × List Nat × Positions →. List Nat × Positions :=
  PFun.fix fun (id, below, positions) => do
    let node ← doc.read id
    match node.parent with
    | none => return .inl (id.slot :: below, positions)
    | some parent =>
      let above ← doc.read parent
      let (marker, list) :=
        if node.kind.nodeType = .attribute then (0, above.kind.attributes)
        else (1, above.children)
      let positions :=
        if (positions.find? id).isSome then positions else positions.insertAll list
      return .inr (parent, marker :: (positions.find? id).getD 0 :: below, positions)

/-! ## Slots in use -/

/-- The slot of a handle holds a node, which the views of the handle show. -/
structure Holds (doc : Document) (id : NodeId) (node : Node) : Prop where
  read : doc.read id = .some node
  kind : doc.kind? id = some node.kind
  type : doc.nodeType? id = some node.kind.nodeType
  parent : doc.parent? id = node.parent
  children : doc.children id = node.children

theorem exists_holds (hid : id ∈ doc) : ∃ node, doc.Holds id node := by
  obtain ⟨node, hnode⟩ := Option.isSome_iff_exists.mp (mem_iff_isSome_node?.mp hid)
  refine ⟨node, ?_, ?_, ?_, ?_, ?_⟩
  · rw [read, hnode, Part.ofOption]
  · simp [kind?, hnode]
  · simp [nodeType?, kind?, hnode]
  · simp [parent?, hnode]
  · simp [Document.children, hnode]

/-! ## Upwards -/

theorem climbLoop_none : doc.climbLoop (found, none) = .some found :=
  Part.eq_some_iff.mpr (PFun.fix_stop (Part.mem_some _))

theorem Holds.climbLoop_some (holds : doc.Holds id node) :
    doc.climbLoop (found, some id) = doc.climbLoop (found ++ [id], doc.parent? id) :=
  PFun.fix_fwd_eq (by simp [holds.read, holds.parent])

theorem keyLoop_none (hid : id ∈ doc) (h : doc.parent? id = none) (below : List Nat)
    (positions : Positions) :
    doc.keyLoop (id, below, positions) = .some (id.slot :: below, positions) := by
  obtain ⟨node, holds⟩ := exists_holds hid
  exact Part.eq_some_iff.mpr (PFun.fix_stop (by simp [holds.read, ← holds.parent, h]))

theorem keyLoop_parent (hid : id ∈ doc) (h : doc.parent? id = some parent) (hparent : parent ∈ doc)
    (below : List Nat) (positions : Positions) :
    doc.keyLoop (id, below, positions) =
      doc.keyLoop (parent,
        (doc.siblings id parent).1 ::
          ((doc.consulted id parent positions).find? id).getD 0 :: below,
        doc.consulted id parent positions) := by
  obtain ⟨node, holds⟩ := exists_holds hid
  obtain ⟨above, holdsAbove⟩ := exists_holds hparent
  have hsiblings : doc.siblings id parent =
      if node.kind.nodeType = .attribute then (0, above.kind.attributes)
      else (1, above.children) := by
    simp [siblings, attributes, holds.type, holdsAbove.kind, holdsAbove.children]
  refine PFun.fix_fwd_eq ?_
  simp [consulted, hsiblings, holds.read, ← holds.parent, h, holdsAbove.read]

section Upwards

variable (wf : doc.WellFormed)
include wf

theorem WellFormed.climbLoop_parent? (id : NodeId) (found : List NodeId) :
    doc.climbLoop (found, doc.parent? id) = .some (found ++ doc.ancestors id) := by
  induction id using wf.induction generalizing found with
  | root id h => rw [h, ancestors_of_none h, climbLoop_none, List.append_nil]
  | child id parent h ih =>
      obtain ⟨node, holds⟩ := exists_holds (wf.parent_mem id parent h)
      rw [h, holds.climbLoop_some, ih, wf.ancestors_of_parent h, List.append_assoc]
      rfl

theorem WellFormed.readAncestors_eq (hid : id ∈ doc) :
    doc.readAncestors id = .some (doc.ancestors id) := by
  obtain ⟨node, holds⟩ := exists_holds hid
  have hclimb := wf.climbLoop_parent? id []
  rw [holds.parent] at hclimb
  simp [readAncestors, holds.read, hclimb]

theorem WellFormed.readTreeRoot_eq (hid : id ∈ doc) :
    doc.readTreeRoot id = .some (doc.treeRoot id) := by
  simp [readTreeRoot, wf.readAncestors_eq hid, treeRoot]

/-- A climb that ends before its bound gives the key that the loop gives. -/
theorem WellFormed.keyLoop_eq {bound : Nat} (hid : id ∈ doc)
    (h : (doc.climb bound id).length < bound) (below : List Nat) (positions : Positions) :
    doc.keyLoop (id, below, positions) =
      .some (doc.recordedKeyAbove bound id below positions) := by
  induction bound, id, h using climb_induction generalizing below positions with
  | root bound id _ hp => rw [recordedKeyAbove_of_none hp, keyLoop_none hid hp]
  | child bound id parent _ _ hp ih =>
      have hmem := wf.parent_mem id parent hp
      rw [recordedKeyAbove_of_parent hp, keyLoop_parent hid hp hmem, ih hmem]

end Upwards

/-! ## Downwards -/

theorem visitLoop_nil : doc.visitLoop (found, []) = .some found :=
  Part.eq_some_iff.mpr (PFun.fix_stop (Part.mem_some _))

theorem Holds.visitLoop_cons (holds : doc.Holds id node) :
    doc.visitLoop (found, id :: pending) =
      doc.visitLoop (found ++ [id], doc.children id ++ pending) :=
  PFun.fix_fwd_eq (by simp [holds.read, holds.children])

theorem visit_nil (bound : Nat) : doc.visit bound [] = [] := by
  cases bound <;> rfl

/-- The handles that a walk down from a node has visited and those that are pending. -/
structure Frontier (doc : Document) (top : NodeId) (visited pending : List NodeId) : Prop where
  nodup : (visited ++ pending).Nodup
  below : ∀ id ∈ visited ++ pending, doc.AncestorOrSelf top id
  entered : ∀ id ∈ visited ++ pending, id = top ∨ ∃ parent ∈ visited, doc.parent? id = some parent

namespace Frontier

theorem known (frontier : doc.Frontier top visited pending) (htop : top ∈ doc)
    (h : id ∈ visited ++ pending) : id ∈ doc :=
  mem_of_ancestorOrSelf (frontier.below id h) htop

theorem length_le (frontier : doc.Frontier top visited pending) (htop : top ∈ doc) :
    (visited ++ pending).length ≤ doc.size :=
  length_le_size frontier.nodup fun _ h => frontier.known htop h

variable (wf : doc.WellFormed)
include wf

/-- A child of a pending handle was not met before. -/
theorem not_mem_of_mem_children {current : NodeId}
    (frontier : doc.Frontier top visited (current :: pending)) (h : id ∈ doc.children current) :
    id ∉ visited ++ current :: pending := by
  have hcurrent : current ∈ visited ++ current :: pending := by simp
  have hparent := wf.children_parent current id h
  intro hmet
  rcases frontier.entered id hmet with rfl | ⟨parent, hvisited, hentered⟩
  · exact wf.acyclic _ (.tail' (frontier.below current hcurrent) hparent)
  · obtain rfl := Option.some.inj (hparent.symm.trans hentered)
    exact List.disjoint_of_nodup_append frontier.nodup hvisited List.mem_cons_self

/-- To visit a handle is to replace it by its children. -/
theorem visit {current : NodeId} (frontier : doc.Frontier top visited (current :: pending)) :
    doc.Frontier top (visited ++ [current]) (doc.children current ++ pending) := by
  have hperm : ((visited ++ [current]) ++ (doc.children current ++ pending)).Perm
      (doc.children current ++ (visited ++ current :: pending)) := by
    rw [List.append_cons visited current pending]
    exact List.perm_append_comm_assoc ..
  refine ⟨hperm.nodup_iff.mpr ?_, fun id h => ?_, fun id h => ?_⟩
  · refine List.nodup_append'.mpr ⟨wf.children_nodup current, frontier.nodup, ?_⟩
    exact fun id h => frontier.not_mem_of_mem_children wf h
  · rcases List.mem_append.mp (hperm.mem_iff.mp h) with h | h
    · exact (frontier.below current (by simp)).tail (wf.children_parent current id h)
    · exact frontier.below id h
  · rcases List.mem_append.mp (hperm.mem_iff.mp h) with h | h
    · exact .inr ⟨current, by simp, wf.children_parent current id h⟩
    · refine (frontier.entered id h).imp_right fun ⟨parent, hvisited, hparent⟩ => ?_
      exact ⟨parent, List.mem_append_left _ hvisited, hparent⟩

theorem start (top : NodeId) : doc.Frontier top [top] (doc.children top) := by
  have frontier : doc.Frontier top [] [top] :=
    ⟨List.nodup_singleton top, by simp [AncestorOrSelf, Relation.ReflTransGen.refl], by simp⟩
  simpa using frontier.visit wf

/-- The pending handles run out before there are as many turns as slots, and no handle is
visited twice. -/
theorem visitLoop_eq {bound : Nat} (frontier : doc.Frontier top visited pending)
    (htop : top ∈ doc) (hbound : doc.size ≤ visited.length + bound) (found : List NodeId) :
    doc.visitLoop (found, pending) = .some (found ++ doc.visit bound pending) ∧
      (visited ++ doc.visit bound pending).Nodup := by
  induction bound generalizing visited pending found with
  | zero =>
      have hlength := frontier.length_le htop
      rw [List.length_append] at hlength
      obtain rfl : pending = [] := List.length_eq_zero_iff.mp (by omega)
      rw [visit_nil, visitLoop_nil, List.append_nil]
      exact ⟨rfl, frontier.nodup⟩
  | succ bound ih =>
      cases pending with
      | nil =>
          rw [visit_nil, visitLoop_nil, List.append_nil]
          exact ⟨rfl, frontier.nodup⟩
      | cons current pending =>
          have hcurrent : current ∈ doc := frontier.known htop (by simp)
          obtain ⟨node, holds⟩ := exists_holds hcurrent
          have hvisited : doc.size ≤ (visited ++ [current]).length + bound := by
            rw [List.length_append, List.length_singleton]
            omega
          obtain ⟨hloop, hnodup⟩ := ih (frontier.visit wf) hvisited (found ++ [current])
          rw [List.append_assoc] at hloop hnodup
          exact ⟨holds.visitLoop_cons.trans hloop, hnodup⟩

end Frontier

theorem WellFormed.readDescendants_eq (wf : doc.WellFormed) (hid : id ∈ doc) :
    doc.readDescendants id = .some (doc.descendants id) ∧ (id :: doc.descendants id).Nodup := by
  obtain ⟨node, holds⟩ := exists_holds hid
  obtain ⟨hloop, hnodup⟩ :=
    (Frontier.start wf id).visitLoop_eq wf hid (Nat.le_add_left doc.size _) []
  refine ⟨?_, hnodup⟩
  rw [holds.children] at hloop
  simp [readDescendants, holds.read, hloop, descendants, holds.children]

end XPathTree.Document
