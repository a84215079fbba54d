import Mathlib.Data.List.InsertIdx
import XPathTree.Proofs.Document.Relink

/-!
# Insertion and removal as a new content

Linking a node into a branch and unlinking one are `relink` with a longer or shorter
list of children (`link_eq_relink`, `unlink_eq_relink`), and what the checks let
through is admissible (`admissible_of_perm`, `admissible_of_sublist`).

`checkInsertable` is split into its part about the node, `checkDetached`, and the rule
of the single root element. The first part is all that a new content asks of nodes
that come from outside (`checkEntry_eq`).
-/

namespace XPathTree.Document

variable {doc : Document} {branch id : NodeId} {content : List NodeId}

/-! ## What the checks ask -/

/-- The checks of an insertion, without the rule of the single root element. -/
def checkDetached (doc : Document) (branch id : NodeId) : Except TreeError Unit :=
  match doc.nodeType? id with
  | none => .error (.unknownNode id)
  | some found => do
    checkType (doc.nodeType? branch) found
    if (doc.parent? id).isSome then .error (.alreadyParented id)
    else if doc.isAncestorOrSelf id branch then .error (.wouldCreateCycle id)
    else .ok ()

/-- An element would be a second one below the document node. -/
def DoublesRoot (doc : Document) (branch id : NodeId) : Prop :=
  doc.nodeType? id = some .element ∧ doc.nodeType? branch = some .document ∧
    0 < doc.elementCount (doc.children branch)

instance : Decidable (doc.DoublesRoot branch id) :=
  inferInstanceAs (Decidable (_ ∧ _ ∧ _))

theorem elementChild?_isSome_iff :
    (doc.elementChild? branch).isSome = true ↔ 0 < doc.elementCount (doc.children branch) := by
  unfold elementChild? elementCount
  rw [List.find?_isSome, List.countP_pos_iff]

theorem checkInsertable_eq :
    doc.checkInsertable branch id = (do
      doc.checkDetached branch id
      if doc.DoublesRoot branch id then .error .duplicateRootElement else .ok ()) := by
  unfold checkInsertable checkDetached
  cases hfound : doc.nodeType? id with
  | none => rfl
  | some found =>
      -- there is a first element exactly when there are more than none
      have hdoubles : doc.DoublesRoot branch id ↔ found = .element ∧
          doc.nodeType? branch = some .document ∧ (doc.elementChild? branch).isSome = true := by
        unfold DoublesRoot
        rw [hfound, elementChild?_isSome_iff, Option.some.injEq]
      simp only [bind, Except.bind, ← hdoubles]
      cases checkType (doc.nodeType? branch) found with
      | error refusal => rfl
      | ok _ =>
          by_cases hparent : (doc.parent? id).isSome = true
          · simp only [if_pos hparent]
          · by_cases habove : doc.isAncestorOrSelf id branch = true
            · simp only [if_neg hparent, if_pos habove]
            · simp only [if_neg hparent, if_neg habove]

theorem checkType_ne_duplicateRootElement (branchType : Option NodeType) (found : NodeType) :
    checkType branchType found ≠ .error .duplicateRootElement := by
  by_cases h : branchType = some .element <;> cases found <;> simp [checkType, h]

theorem checkDetached_ne_duplicateRootElement (doc : Document) (branch id : NodeId) :
    doc.checkDetached branch id ≠ .error .duplicateRootElement := by
  unfold checkDetached
  cases doc.nodeType? id with
  | none => simp
  | some found =>
      have htype := checkType_ne_duplicateRootElement (doc.nodeType? branch) found
      simp only [bind, Except.bind]
      cases hcheck : checkType (doc.nodeType? branch) found with
      | error refusal =>
          rw [hcheck] at htype
          simpa using htype
      | ok _ =>
          by_cases hparent : (doc.parent? id).isSome = true
          · simp [if_pos hparent]
          · by_cases habove : doc.isAncestorOrSelf id branch = true
            · simp [if_neg hparent, if_pos habove]
            · simp [if_neg hparent, if_neg habove]

/-- Nodes of a new content that are not yet under the branch have to be detached. -/
theorem checkEntry_eq (earlier : List NodeId) :
    doc.checkEntry branch earlier id =
      if id ∉ doc then .error (.unknownNode id)
      else if id ∈ earlier then .error (.alreadyParented id)
      else if doc.parent? id = some branch then .ok ()
      else doc.checkDetached branch id := by
  unfold checkEntry
  rw [checkInsertable_eq]
  simp only [List.contains_iff_mem]
  split
  · rfl
  · split
    · rfl
    · split
      · rfl
      · have hne := doc.checkDetached_ne_duplicateRootElement branch id
        cases hcheck : doc.checkDetached branch id with
        | ok _ => by_cases h : doc.DoublesRoot branch id <;> simp [h, bind, Except.bind]
        | error refusal =>
            rw [hcheck] at hne
            cases refusal <;> first | rfl | exact absurd rfl hne

theorem WellFormed.checkDetached_eq_ok_iff (wf : doc.WellFormed) :
    doc.checkDetached branch id = .ok () ↔
      doc.Accepts branch id ∧ doc.parent? id = none ∧ ¬ doc.AncestorOrSelf id branch := by
  rw [← wf.isAncestorOrSelf_iff]
  unfold checkDetached Accepts
  cases hfound : doc.nodeType? id with
  | none => simp
  | some found =>
      cases hcheck : checkType (doc.nodeType? branch) found with
      | error refusal => simp [hcheck, bind, Except.bind]
      | ok _ =>
          by_cases hparent : (doc.parent? id).isSome = true
          · have hne : doc.parent? id ≠ none := Option.isSome_iff_ne_none.mp hparent
            simp [hcheck, bind, Except.bind, hparent, hne]
          · have hnone : doc.parent? id = none := Option.not_isSome_iff_eq_none.mp hparent
            by_cases habove : doc.isAncestorOrSelf id branch = true
            · simp [hcheck, bind, Except.bind, hnone, habove]
            · simp [hcheck, bind, Except.bind, hnone, habove]

theorem checkInsertable_eq_ok_iff :
    doc.checkInsertable branch id = .ok () ↔
      doc.checkDetached branch id = .ok () ∧ ¬ doc.DoublesRoot branch id := by
  rw [checkInsertable_eq]
  cases doc.checkDetached branch id with
  | error refusal => simp [bind, Except.bind]
  | ok _ => by_cases h : doc.DoublesRoot branch id <;> simp [h, bind, Except.bind]

/-! ## Admissible contents -/

theorem elementCount_perm {ids ids' : List NodeId} (h : ids.Perm ids') :
    doc.elementCount ids = doc.elementCount ids' :=
  h.countP_eq _

theorem elementCount_cons (ids : List NodeId) :
    doc.elementCount (id :: ids) =
      doc.elementCount ids + if doc.nodeType? id = some .element then 1 else 0 := by
  unfold elementCount
  rw [List.countP_cons]
  simp only [beq_iff_eq]

/-- The order of a content plays no role. -/
theorem Admissible.perm {ids : List NodeId} (ad : doc.Admissible branch content)
    (h : ids.Perm content) : doc.Admissible branch ids where
  isBranch := ad.isBranch
  mem id hid := ad.mem id (h.mem_iff.mp hid)
  nodup := h.nodup_iff.mpr ad.nodup
  free id hid := ad.free id (h.mem_iff.mp hid)
  elements hroot := by
    rw [elementCount_perm h]
    exact ad.elements hroot

/-- The children of a branch are an admissible content, and so is any part of them. -/
theorem WellFormed.admissible_of_sublist (wf : doc.WellFormed) (hbranch : doc.IsBranch branch)
    (h : content.Sublist (doc.children branch)) : doc.Admissible branch content where
  isBranch := hbranch
  mem id hid := wf.children_mem branch id (h.subset hid)
  nodup := (wf.children_nodup branch).sublist h
  free id hid := .inl (wf.children_parent branch id (h.subset hid))
  elements hroot := by
    subst hroot
    exact Nat.le_trans (h.countP_le) wf.root_elements

/-- A node that passes the checks of an insertion may join an admissible content. -/
theorem WellFormed.admissible_cons (wf : doc.WellFormed) (ad : doc.Admissible branch content)
    (hid : id ∉ content) (mem : id ∈ doc)
    (free : doc.parent? id = some branch ∨ doc.checkDetached branch id = .ok ())
    (elements : branch = root → doc.elementCount (id :: content) ≤ 1) :
    doc.Admissible branch (id :: content) where
  isBranch := ad.isBranch
  mem x hx := by
    rcases List.mem_cons.mp hx with rfl | hx
    · exact mem
    · exact ad.mem x hx
  nodup := List.nodup_cons.mpr ⟨hid, ad.nodup⟩
  free x hx := by
    rcases List.mem_cons.mp hx with rfl | hx
    · rcases free with free | free
      · exact .inl free
      · obtain ⟨haccepts, hparent, habove⟩ := wf.checkDetached_eq_ok_iff.mp free
        exact .inr ⟨hparent, habove, haccepts⟩
    · exact ad.free x hx
  elements := elements

theorem Accepts.mem (h : doc.Accepts branch id) : id ∈ doc := by
  obtain ⟨found, hfound, _⟩ := h
  exact mem_of_nodeType? hfound

theorem WellFormed.admissible_of_perm (wf : doc.WellFormed) (hbranch : doc.IsBranch branch)
    (hcheck : doc.checkInsertable branch id = .ok ())
    (h : content.Perm (id :: doc.children branch)) : doc.Admissible branch content := by
  obtain ⟨hdetached, hsingle⟩ := checkInsertable_eq_ok_iff.mp hcheck
  obtain ⟨haccepts, hparent, _⟩ := wf.checkDetached_eq_ok_iff.mp hdetached
  have hid : id ∉ doc.children branch := by
    intro hid
    rw [wf.children_parent branch id hid] at hparent
    cases hparent
  refine (wf.admissible_cons (wf.admissible_of_sublist hbranch (.refl _)) hid haccepts.mem
    (.inr hdetached) fun hroot => ?_).perm h
  subst hroot
  have hle := wf.root_elements
  have hdocument := (wf.document_iff root).mpr rfl
  rw [elementCount_cons]
  by_cases helement : doc.nodeType? id = some .element
  · have hzero : ¬ 0 < doc.elementCount (doc.children root) :=
      fun hpos => hsingle ⟨helement, hdocument, hpos⟩
    rw [if_pos helement]
    omega
  · rw [if_neg helement]
    omega

/-! ## Linking and unlinking -/

theorem WellFormed.link_eq_relink (wf : doc.WellFormed) (hbranch : branch ∈ doc) (hid : id ∈ doc)
    {index : Nat} (hindex : index ≤ (doc.children branch).length) :
    doc.link branch index id =
      doc.relink branch ((doc.children branch).insertIdx index id) := by
  have hmem : ∀ x, x ∈ (doc.children branch).insertIdx index id ↔
      x = id ∨ x ∈ doc.children branch := fun x => List.mem_insertIdx hindex
  have hknown : ∀ x ∈ (doc.children branch).insertIdx index id, x ∈ doc := by
    intro x hx
    rcases (hmem x).mp hx with rfl | hx
    · exact hid
    · exact wf.children_mem branch x hx
  refine eq_of_views (by simp) (by simp) (fun x => ?_) fun x => ?_
  · rw [wf.parent?_relink hknown, parent?_link _ _ _ _ hid]
    simp only [hmem]
    by_cases heq : x = id
    · rw [if_pos heq, if_pos (.inl heq)]
    · by_cases hchild : x ∈ doc.children branch
      · rw [if_neg heq, if_pos (.inr hchild)]
        exact wf.children_parent branch x hchild
      · rw [if_neg heq, if_neg (by simp [heq, hchild]), if_neg hchild]
  · rw [children_relink _ _ _ hbranch, children_link _ _ _ _ hbranch]

/-! ## The child at a place -/

theorem cons_eraseIdx_perm {ids : List NodeId} {index : Nat} (h : ids[index]? = some id) :
    (id :: ids.eraseIdx index).Perm ids := by
  obtain ⟨hlt, rfl⟩ := List.getElem?_eq_some_iff.mp h
  exact List.getElem_cons_eraseIdx_perm hlt

section Place

variable {index : Nat} (wf : doc.WellFormed) (h : (doc.children branch)[index]? = some id)
include wf h

theorem WellFormed.parent?_of_getElem? : doc.parent? id = some branch :=
  wf.children_parent branch id (List.mem_of_getElem? h)

theorem WellFormed.isBranch_of_getElem? : doc.IsBranch branch :=
  wf.parent_branch id branch (wf.parent?_of_getElem? h)

/-- A child stands nowhere else. -/
theorem WellFormed.not_mem_eraseIdx : id ∉ (doc.children branch).eraseIdx index := by
  have hnodup := (cons_eraseIdx_perm h).nodup_iff.mpr (wf.children_nodup branch)
  exact (List.nodup_cons.mp hnodup).1

theorem WellFormed.mem_eraseIdx_iff {x : NodeId} :
    x ∈ (doc.children branch).eraseIdx index ↔ x ≠ id ∧ x ∈ doc.children branch := by
  rw [← (cons_eraseIdx_perm h).mem_iff, List.mem_cons]
  constructor
  · intro hx
    refine ⟨?_, .inr hx⟩
    rintro rfl
    exact wf.not_mem_eraseIdx h hx
  · rintro ⟨hne, hx⟩
    exact hx.resolve_left hne

theorem WellFormed.unlink_eq_relink :
    doc.unlink branch index id = doc.relink branch ((doc.children branch).eraseIdx index) := by
  have hchild : id ∈ doc.children branch := List.mem_of_getElem? h
  have hbranch : branch ∈ doc := mem_of_mem_children hchild
  have hid : id ∈ doc := wf.children_mem branch id hchild
  have hknown : ∀ x ∈ (doc.children branch).eraseIdx index, x ∈ doc :=
    fun x hx => wf.children_mem branch x (List.mem_of_mem_eraseIdx hx)
  refine eq_of_views (by simp) (by simp) (fun x => ?_) fun x => ?_
  · rw [wf.parent?_relink hknown, parent?_unlink _ _ _ _ hid]
    simp only [wf.mem_eraseIdx_iff h]
    by_cases heq : x = id
    · rw [if_pos heq, if_neg (fun hx => hx.1 heq), if_pos (heq ▸ hchild)]
    · by_cases hx : x ∈ doc.children branch
      · rw [if_neg heq, if_pos ⟨heq, hx⟩]
        exact wf.children_parent branch x hx
      · rw [if_neg heq, if_neg (fun h => hx h.2), if_neg hx]
  · rw [children_relink _ _ _ hbranch, children_unlink _ _ _ _ hbranch]

end Place

end XPathTree.Document
