import Mathlib.Data.List.Nodup
import Mathlib.Data.List.Perm.Subperm
import XPathTree.Proofs.Document.WellFormed

/-!
# Ancestors

`climb` walks at most a given number of steps. In a well-formed document the walk
that `ancestors` makes always ends before its bound: the nodes met are distinct and
differ from the start, and there are only `size` of them (`length_ancestors_lt`).
So the bound disappears from every statement below: `ancestors` obeys the recursion
one expects (`ancestors_of_parent`), lists exactly the proper ancestors, and gives
the measure for induction from roots to leaves (`WellFormed.induction`).
-/

namespace XPathTree.Document

variable {doc : Document} {id parent a : NodeId} {bound : Nat}

/-! ## The bounded walk -/

theorem climb_of_none (h : doc.parent? id = none) : doc.climb bound id = [] := by
  cases bound with
  | zero => rfl
  | succ bound =>
      unfold climb
      rw [h]

theorem climb_of_parent (h : doc.parent? id = some parent) :
    doc.climb (bound + 1) id = parent :: doc.climb bound parent := by
  rw [climb, h]

theorem ancestor_of_mem_climb (h : a ∈ doc.climb bound id) : doc.Ancestor a id := by
  induction bound generalizing id with
  | zero => cases h
  | succ bound ih =>
      cases hp : doc.parent? id with
      | none =>
          rw [climb_of_none hp] at h
          cases h
      | some parent =>
          rw [climb_of_parent hp] at h
          rcases List.mem_cons.mp h with rfl | h
          · exact .single hp
          · exact (ih h).tail hp

theorem WellFormed.climb_nodup (wf : doc.WellFormed) : (doc.climb bound id).Nodup := by
  induction bound generalizing id with
  | zero => exact List.nodup_nil
  | succ bound ih =>
      cases hp : doc.parent? id with
      | none =>
          rw [climb_of_none hp]
          exact List.nodup_nil
      | some parent =>
          rw [climb_of_parent hp]
          exact List.nodup_cons.mpr
            ⟨fun h => wf.acyclic parent (ancestor_of_mem_climb h), ih⟩

/-- Induction along a walk that ends before its bound. -/
theorem climb_induction
    {P : (bound : Nat) → (id : NodeId) → (doc.climb bound id).length < bound → Prop}
    (root : ∀ bound id h, doc.parent? id = none → P (bound + 1) id h)
    (child : ∀ bound id parent h h', doc.parent? id = some parent → P bound parent h' →
      P (bound + 1) id h) :
    ∀ bound id h, P bound id h := by
  intro bound
  induction bound with
  | zero => exact fun id h => nomatch h
  | succ bound ih =>
      intro id h
      cases hp : doc.parent? id with
      | none => exact root bound id h hp
      | some parent =>
          have h' : (doc.climb bound parent).length < bound := by
            rw [climb_of_parent hp, List.length_cons] at h
            omega
          exact child bound id parent h h' hp (ih parent h')

/-- A walk that ends before its bound does not notice a larger one. -/
theorem climb_succ (h : (doc.climb bound id).length < bound) :
    doc.climb (bound + 1) id = doc.climb bound id := by
  induction bound, id, h using climb_induction with
  | root bound id _ hp => rw [climb_of_none hp, climb_of_none hp]
  | child bound id parent _ _ hp ih => rw [climb_of_parent hp, climb_of_parent hp, ih]

/-! ## The bound suffices -/

theorem WellFormed.ancestor_mem (wf : doc.WellFormed) (h : doc.Ancestor a id) : a ∈ doc := by
  induction h with
  | single h => exact wf.parent_mem _ _ h
  | tail _ _ ih => exact ih

theorem eq_of_slot_eq {a b : NodeId} (h : a.slot = b.slot) : a = b := by
  cases a
  cases b
  exact congrArg NodeId.mk h

/-- Distinct handles of a document are at most as many as its slots. -/
theorem length_le_size {ids : List NodeId} (nodup : ids.Nodup) (known : ∀ id ∈ ids, id ∈ doc) :
    ids.length ≤ doc.size := by
  -- the slots are distinct numbers below the size
  have hslots : (ids.map NodeId.slot).Nodup := nodup.map fun _ _ => eq_of_slot_eq
  have hrange : ids.map NodeId.slot ⊆ List.range doc.size := by
    intro slot h
    obtain ⟨id, hid, rfl⟩ := List.mem_map.mp h
    exact List.mem_range.mpr (known id hid)
  have hle := (List.subperm_of_subset hslots hrange).length_le
  rwa [List.length_map, List.length_range] at hle

theorem WellFormed.length_climb_lt (wf : doc.WellFormed) (h : id ∈ doc) :
    (doc.climb bound id).length < doc.size := by
  have hnodup : (id :: doc.climb bound id).Nodup :=
    List.nodup_cons.mpr ⟨fun h => wf.acyclic id (ancestor_of_mem_climb h), wf.climb_nodup⟩
  refine length_le_size hnodup fun a ha => ?_
  rcases List.mem_cons.mp ha with rfl | ha
  · exact h
  · exact wf.ancestor_mem (ancestor_of_mem_climb ha)

theorem WellFormed.length_ancestors_lt (wf : doc.WellFormed) (h : id ∈ doc) :
    (doc.ancestors id).length < doc.size :=
  wf.length_climb_lt h

/-! ## Ancestors without a bound -/

theorem ancestors_of_none (h : doc.parent? id = none) : doc.ancestors id = [] :=
  climb_of_none h

theorem mem_of_parent? (h : doc.parent? id = some parent) : id ∈ doc := by
  by_contra hid
  rw [parent?_eq_none_of_not_mem hid] at h
  cases h

/-- After the step to the parent the bound is larger than the rest of the walk. -/
theorem WellFormed.exists_size_eq_succ (wf : doc.WellFormed)
    (h : doc.parent? id = some parent) :
    ∃ bound, doc.size = bound + 1 ∧ (doc.climb bound parent).length < bound := by
  have hlt := wf.length_ancestors_lt (mem_of_parent? h)
  unfold ancestors at hlt
  cases hsize : doc.size with
  | zero => omega
  | succ bound =>
      rw [hsize, climb_of_parent h, List.length_cons] at hlt
      exact ⟨bound, rfl, by omega⟩

/-- The ancestors of a node are its parent and the ancestors of that. -/
theorem WellFormed.ancestors_of_parent (wf : doc.WellFormed)
    (h : doc.parent? id = some parent) :
    doc.ancestors id = parent :: doc.ancestors parent := by
  obtain ⟨bound, hsize, hlt⟩ := wf.exists_size_eq_succ h
  unfold ancestors
  rw [hsize, climb_of_parent h, climb_succ hlt]

theorem WellFormed.mem_ancestors_iff (wf : doc.WellFormed) :
    a ∈ doc.ancestors id ↔ doc.Ancestor a id := by
  refine ⟨ancestor_of_mem_climb, fun h => ?_⟩
  induction h with
  | single h =>
      rw [wf.ancestors_of_parent h]
      exact List.mem_cons_self
  | tail _ h ih =>
      rw [wf.ancestors_of_parent h]
      exact List.mem_cons_of_mem _ ih

theorem ancestorOrSelf_iff : doc.AncestorOrSelf a id ↔ a = id ∨ doc.Ancestor a id := by
  unfold AncestorOrSelf Ancestor
  rw [Relation.reflTransGen_iff_eq_or_transGen, eq_comm]

/-- The ancestors of a node are its parent and the ancestors of that. -/
theorem ancestor_iff_of_parent (h : doc.parent? id = some parent) :
    doc.Ancestor a id ↔ a = parent ∨ doc.Ancestor a parent := by
  rw [← ancestorOrSelf_iff]
  refine ⟨fun habove => ?_, fun habove => Relation.TransGen.tail' habove h⟩
  obtain ⟨upper, hupper, hparent⟩ := Relation.TransGen.tail'_iff.mp habove
  have heq := Option.some.inj (h.symm.trans hparent)
  rwa [heq]

/-- The ancestors of a node and the node itself are the node and those of its parent. -/
theorem ancestorOrSelf_iff_of_parent (h : doc.parent? id = some parent) :
    doc.AncestorOrSelf a id ↔ a = id ∨ doc.AncestorOrSelf a parent := by
  rw [ancestorOrSelf_iff, ancestor_iff_of_parent h, ← ancestorOrSelf_iff]

theorem ancestorOrSelf_iff_of_none (h : doc.parent? id = none) :
    doc.AncestorOrSelf a id ↔ a = id := by
  refine ancestorOrSelf_iff.trans (or_iff_left fun habove => ?_)
  obtain ⟨parent, _, hparent⟩ := Relation.TransGen.tail'_iff.mp habove
  exact absurd (h.symm.trans hparent) nofun

theorem mem_of_ancestorOrSelf (h : doc.AncestorOrSelf a id) (ha : a ∈ doc) : id ∈ doc := by
  cases h with
  | refl => exact ha
  | tail _ hparent => exact mem_of_parent? hparent

theorem WellFormed.ancestorOrSelf_mem (wf : doc.WellFormed) (h : doc.AncestorOrSelf a id)
    (hid : id ∈ doc) : a ∈ doc := by
  rcases ancestorOrSelf_iff.mp h with rfl | h
  · exact hid
  · exact wf.ancestor_mem h

theorem WellFormed.isAncestorOrSelf_iff (wf : doc.WellFormed) :
    doc.isAncestorOrSelf a id = true ↔ doc.AncestorOrSelf a id := by
  unfold isAncestorOrSelf
  rw [ancestorOrSelf_iff, ← wf.mem_ancestors_iff]
  simp

/-- Induction from the roots downwards. -/
theorem WellFormed.induction (wf : doc.WellFormed) {P : NodeId → Prop}
    (root : ∀ id, doc.parent? id = none → P id)
    (child : ∀ id parent, doc.parent? id = some parent → P parent → P id) :
    ∀ id, P id := by
  intro id
  induction hn : (doc.ancestors id).length generalizing id with
  | zero =>
      cases hp : doc.parent? id with
      | none => exact root id hp
      | some parent =>
          rw [wf.ancestors_of_parent hp, List.length_cons] at hn
          omega
  | succ n ih =>
      cases hp : doc.parent? id with
      | none => exact root id hp
      | some parent =>
          rw [wf.ancestors_of_parent hp, List.length_cons] at hn
          exact child id parent hp (ih parent (by omega))

/-! ## The root of a tree -/

theorem treeRoot_of_none (h : doc.parent? id = none) : doc.treeRoot id = id := by
  unfold treeRoot
  rw [ancestors_of_none h]
  rfl

theorem WellFormed.treeRoot_of_parent (wf : doc.WellFormed)
    (h : doc.parent? id = some parent) : doc.treeRoot id = doc.treeRoot parent := by
  unfold treeRoot
  rw [wf.ancestors_of_parent h, List.getLast?_cons]
  rfl

theorem WellFormed.parent?_treeRoot (wf : doc.WellFormed) (id : NodeId) :
    doc.parent? (doc.treeRoot id) = none := by
  induction id using wf.induction with
  | root id h => rwa [treeRoot_of_none h]
  | child id parent h ih => rwa [wf.treeRoot_of_parent h]

theorem WellFormed.treeRoot_ancestorOrSelf (wf : doc.WellFormed) (id : NodeId) :
    doc.AncestorOrSelf (doc.treeRoot id) id := by
  induction id using wf.induction with
  | root id h =>
      rw [treeRoot_of_none h]
      exact .refl
  | child id parent h ih =>
      rw [wf.treeRoot_of_parent h]
      exact ih.tail h

theorem WellFormed.treeRoot_mem_iff (wf : doc.WellFormed) :
    doc.treeRoot id ∈ doc ↔ id ∈ doc := by
  have habove := wf.treeRoot_ancestorOrSelf id
  exact ⟨mem_of_ancestorOrSelf habove, wf.ancestorOrSelf_mem habove⟩

theorem WellFormed.treeRoot_eq_of_ancestorOrSelf (wf : doc.WellFormed)
    (h : doc.AncestorOrSelf a id) : doc.treeRoot id = doc.treeRoot a := by
  induction h with
  | refl => rfl
  | tail _ h ih => exact (wf.treeRoot_of_parent h).trans ih

end XPathTree.Document
