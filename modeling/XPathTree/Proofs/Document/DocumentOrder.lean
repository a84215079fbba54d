import XPathTree.Proofs.Document.OrderKey

/-!
# Document order

A document that came about without handing an attribute to `setContent` is orderly: its
links agree, and its attributes stand under the elements that list them. There, order keys
tell handles apart, so that `Precedes` is a strict total order.

A list is in order when each node of it precedes all that stand behind. Such a list is
determined by its members (`InOrder.eq_of_mem_iff`), and at any node of it the list is
parted into what precedes the node and what the node precedes.
-/

namespace XPathTree.Document

/-- Links agree, and attributes are apart from contents. -/
structure Orderly (doc : Document) : Prop where
  wellFormed : doc.WellFormed
  listed : doc.AttributesListed
  apart : doc.AttributesApart

/-- Some caller can hold this document without ever having handed an attribute to
`setContent`. -/
def Careful (doc : Document) : Prop :=
  ∃ commands, ¬ empty.HandsAttributes commands ∧ empty.run commands = doc

theorem Careful.orderly {doc : Document} (careful : doc.Careful) : doc.Orderly := by
  obtain ⟨commands, hands, rfl⟩ := careful
  refine ⟨wellFormed_empty.run commands, ?_, ?_⟩
  · exact attributesListed_empty.run wellFormed_empty commands
  · refine (attributesApart_run_iff commands).mpr fun admits => hands ?_
    exact handsAttributes_of_admitsAttribute admits

/-- One node comes before another in document order. -/
def Precedes (doc : Document) (x y : NodeId) : Prop := doc.orderKey x < doc.orderKey y

instance (doc : Document) (x y : NodeId) : Decidable (doc.Precedes x y) :=
  inferInstanceAs (Decidable (doc.orderKey x < doc.orderKey y))

variable {doc : Document} {id parent x y z : NodeId} {ids ids' before behind : List NodeId}

theorem not_precedes_self (x : NodeId) : ¬ doc.Precedes x x := List.lt_irrefl _

theorem Precedes.trans (h : doc.Precedes x y) (h' : doc.Precedes y z) : doc.Precedes x z :=
  List.lt_trans h h'

theorem Precedes.asymm (h : doc.Precedes x y) : ¬ doc.Precedes y x :=
  fun h' => not_precedes_self x (h.trans h')

theorem Precedes.ne (h : doc.Precedes x y) : x ≠ y := by
  rintro rfl
  exact not_precedes_self x h

/-- Order keys tell handles apart, with or without a slot: the key of a handle without a slot
is that slot alone, and no root has it. -/
theorem Orderly.eq_of_orderKey_eq (orderly : doc.Orderly) (h : doc.orderKey x = doc.orderKey y) :
    x = y := by
  have wf := orderly.wellFormed
  have htree := wf.treeRoot_eq_of_orderKey_eq h
  have hmem : x ∈ doc ↔ y ∈ doc := by
    rw [← wf.treeRoot_mem_iff, htree, wf.treeRoot_mem_iff]
  by_cases hx : x ∈ doc
  · exact orderKey_inj wf orderly.listed orderly.apart hx (hmem.mp hx) h
  · rwa [treeRoot_of_none (parent?_eq_none_of_not_mem hx),
      treeRoot_of_none (parent?_eq_none_of_not_mem (hmem.not.mp hx))] at htree

theorem Orderly.precedes_or_precedes (orderly : doc.Orderly) (hne : x ≠ y) :
    doc.Precedes x y ∨ doc.Precedes y x := by
  by_contra hneither
  obtain ⟨hxy, hyx⟩ := not_or.mp hneither
  have hkey := List.le_antisymm (List.not_lt.mp hyx) (List.not_lt.mp hxy)
  exact hne (orderly.eq_of_orderKey_eq hkey)

/-- A parent comes before its children and its attributes. -/
theorem WellFormed.parent_precedes (wf : doc.WellFormed) (h : doc.parent? id = some parent) :
    doc.Precedes parent id := by
  unfold Precedes
  rw [wf.orderKey_of_parent h]
  exact lt_of_place List.prefix_rfl

theorem WellFormed.ancestor_precedes (wf : doc.WellFormed) (h : doc.Ancestor x y) :
    doc.Precedes x y := by
  induction h with
  | single h => exact wf.parent_precedes h
  | tail _ h ih => exact ih.trans (wf.parent_precedes h)

/-! ## Lists in order -/

/-- Each node of the list precedes all nodes behind it. -/
def InOrder (doc : Document) (ids : List NodeId) : Prop := ids.Pairwise doc.Precedes

instance (doc : Document) (ids : List NodeId) : Decidable (doc.InOrder ids) :=
  inferInstanceAs (Decidable (ids.Pairwise doc.Precedes))

theorem InOrder.nil : doc.InOrder [] := List.Pairwise.nil

theorem InOrder.singleton (id : NodeId) : doc.InOrder [id] := List.pairwise_singleton _ id

theorem InOrder.sublist (inOrder : doc.InOrder ids) (h : ids'.Sublist ids) :
    doc.InOrder ids' :=
  List.Pairwise.sublist h inOrder

theorem InOrder.nodup (inOrder : doc.InOrder ids) : ids.Nodup :=
  List.Pairwise.imp Precedes.ne inOrder

/-- A list in order is determined by its members. -/
theorem InOrder.eq_of_mem_iff (inOrder : doc.InOrder ids) (inOrder' : doc.InOrder ids')
    (h : ∀ id, id ∈ ids ↔ id ∈ ids') : ids = ids' := by
  have hperm := (List.perm_ext_iff_of_nodup inOrder.nodup inOrder'.nodup).mpr h
  refine hperm.eq_of_pairwise (fun x y _ _ hxy hyx => ?_) inOrder inOrder'
  exact absurd hyx hxy.asymm

/-- A list in order is a part of every list in order that holds its nodes. -/
theorem InOrder.sublist_of_subset (inOrder : doc.InOrder ids) (inOrder' : doc.InOrder ids')
    (h : ids ⊆ ids') : ids.Sublist ids' := by
  have hpart : ids'.filter (· ∈ ids) = ids := by
    refine (inOrder'.sublist List.filter_sublist).eq_of_mem_iff inOrder fun id => ?_
    rw [List.mem_filter, decide_eq_true_iff]
    exact and_iff_right_of_imp fun hid => h hid
  rw [← hpart]
  exact List.filter_sublist

section Parting

variable (inOrder : doc.InOrder (before ++ x :: behind))
include inOrder

theorem InOrder.precedes_of_mem_before (hy : y ∈ before) : doc.Precedes y x :=
  (List.pairwise_append.mp inOrder).2.2 y hy x List.mem_cons_self

theorem InOrder.precedes_of_mem_behind (hy : y ∈ behind) : doc.Precedes x y :=
  List.rel_of_pairwise_cons (List.pairwise_append.mp inOrder).2.1 hy

/-- Behind a node of a list stand the nodes that it precedes. -/
theorem InOrder.mem_behind_iff (hy : y ∈ before ++ x :: behind) :
    y ∈ behind ↔ doc.Precedes x y := by
  refine ⟨inOrder.precedes_of_mem_behind, fun h => ?_⟩
  rcases List.mem_append.mp hy with hy | hy
  · exact absurd h (inOrder.precedes_of_mem_before hy).asymm
  · rcases List.mem_cons.mp hy with rfl | hy
    · exact absurd h (not_precedes_self _)
    · exact hy

/-- In front of a node of a list stand the nodes that precede it. -/
theorem InOrder.mem_before_iff (hy : y ∈ before ++ x :: behind) :
    y ∈ before ↔ doc.Precedes y x := by
  refine ⟨inOrder.precedes_of_mem_before, fun h => ?_⟩
  rcases List.mem_append.mp hy with hy | hy
  · exact hy
  · rcases List.mem_cons.mp hy with rfl | hy
    · exact absurd h (not_precedes_self _)
    · exact absurd h (inOrder.precedes_of_mem_behind hy).asymm

end Parting

theorem Orderly.inOrder_walk (orderly : doc.Orderly) (id : NodeId) : doc.InOrder (doc.walk id) :=
  sorted_outline orderly.wellFormed orderly.listed orderly.apart doc.size id

end XPathTree.Document
