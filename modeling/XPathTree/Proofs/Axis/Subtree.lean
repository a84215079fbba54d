import XPathTree.Proofs.Document.DocumentOrder

/-!
# Subtrees

`visit` keeps the handles still to be visited and replaces each by its children, up to a
bound. What it lists is a beginning of the walks of the pending handles, without their
attributes (`visit_eq_take`). The nodes below a node are distinct, so that the bound of
`descendants` cuts nothing off: the descendants of a node are its walk without the node
itself and without attributes. Hence they are in order, and they are the nodes other than
attributes that have the node as an ancestor.
-/

namespace XPathTree.Document

/-- The node is no attribute. -/
def IsContent (doc : Document) (id : NodeId) : Prop := doc.nodeType? id ≠ some .attribute

instance (doc : Document) (id : NodeId) : Decidable (doc.IsContent id) :=
  inferInstanceAs (Decidable (_ ≠ _))

/-- The walk of a node without attributes. -/
def contents (doc : Document) (id : NodeId) : List NodeId :=
  (doc.walk id).filter (doc.IsContent ·)

variable {doc : Document} {id parent x : NodeId} {pending : List NodeId}

theorem mem_contents_iff : x ∈ doc.contents id ↔ x ∈ doc.walk id ∧ doc.IsContent x := by
  simp [contents]

theorem IsBranch.isContent (h : doc.IsBranch id) : doc.IsContent id := by
  intro hattribute
  rcases h with h | h <;> rw [hattribute] at h <;> cases h

section Orderly

variable (orderly : doc.Orderly)
include orderly

theorem Orderly.mem_children_iff :
    x ∈ doc.children id ↔ doc.parent? x = some id ∧ doc.IsContent x := by
  constructor
  · intro h
    exact ⟨orderly.wellFormed.children_parent id x h, orderly.apart.not_child id x h⟩
  · rintro ⟨hparent, hcontent⟩
    exact orderly.wellFormed.parent_children x id hparent hcontent

theorem Orderly.mem_attributes_iff :
    x ∈ doc.attributes id ↔ doc.parent? x = some id ∧ ¬ doc.IsContent x := by
  constructor
  · intro h
    exact ⟨orderly.apart.parent id x h, not_not.mpr (orderly.listed.type id x h)⟩
  · rintro ⟨hparent, hcontent⟩
    exact orderly.listed.parent x id (not_not.mp hcontent) hparent

theorem Orderly.filter_attributes : (doc.attributes id).filter (doc.IsContent ·) = [] := by
  refine List.filter_eq_nil_iff.mpr fun x hx => ?_
  simpa using (orderly.mem_attributes_iff.mp hx).2

/-- What a walk meets besides the node itself and attributes lies below its children. -/
theorem Orderly.contents_eq (hid : id ∈ doc) (hcontent : doc.IsContent id) :
    doc.contents id = id :: (doc.children id).flatMap doc.contents := by
  unfold contents
  rw [orderly.wellFormed.walk_eq hid, List.filter_cons_of_pos (by simpa using hcontent),
    List.filter_append, orderly.filter_attributes, List.nil_append, List.filter_flatMap]

/-! ## Visiting with pending handles -/

/-- Visiting lists the walks of the pending handles, as far as the bound allows. -/
theorem Orderly.visit_eq_take (bound : Nat) (known : ∀ id ∈ pending, id ∈ doc)
    (content : ∀ id ∈ pending, doc.IsContent id) :
    doc.visit bound pending = (pending.flatMap doc.contents).take bound := by
  induction bound generalizing pending with
  | zero => simp [visit]
  | succ bound ih =>
      cases pending with
      | nil => simp [visit]
      | cons id rest =>
          have hid := known id List.mem_cons_self
          have hcontent := content id List.mem_cons_self
          have hknown : ∀ x ∈ doc.children id ++ rest, x ∈ doc := by
            intro x hx
            rcases List.mem_append.mp hx with hx | hx
            · exact orderly.wellFormed.children_mem id x hx
            · exact known x (List.mem_cons_of_mem _ hx)
          have hcontents : ∀ x ∈ doc.children id ++ rest, doc.IsContent x := by
            intro x hx
            rcases List.mem_append.mp hx with hx | hx
            · exact (orderly.mem_children_iff.mp hx).2
            · exact content x (List.mem_cons_of_mem _ hx)
          show id :: doc.visit bound (doc.children id ++ rest) = _
          rw [ih hknown hcontents, List.flatMap_cons, orderly.contents_eq hid hcontent,
            List.cons_append, List.take_succ_cons, List.flatMap_append]

theorem Orderly.flatMap_contents_sublist (hid : id ∈ doc) :
    (id :: (doc.children id).flatMap doc.contents).Sublist (doc.walk id) := by
  unfold contents
  rw [orderly.wellFormed.walk_eq hid, ← List.filter_flatMap]
  refine List.Sublist.cons_cons id ?_
  exact List.filter_sublist.trans (List.sublist_append_right _ _)

theorem Orderly.mem_walk_iff (hid : id ∈ doc) :
    x ∈ doc.walk id ↔ doc.AncestorOrSelf id x :=
  orderly.apart.mem_walk_iff orderly.wellFormed orderly.listed hid

/-! ## Descendants -/

/-- The bound of `descendants` suffices. -/
theorem Orderly.descendants_eq (hid : id ∈ doc) :
    doc.descendants id = (doc.children id).flatMap doc.contents := by
  have hsublist := orderly.flatMap_contents_sublist hid
  unfold descendants
  rw [orderly.visit_eq_take doc.size (orderly.wellFormed.children_mem id)
    fun x hx => (orderly.mem_children_iff.mp hx).2]
  refine List.take_of_length_le (length_le_size ?_ fun x hx => ?_)
  · exact (((orderly.inOrder_walk id).sublist hsublist).nodup).of_cons
  · have hwalk := hsublist.subset (List.mem_cons_of_mem _ hx)
    exact mem_of_ancestorOrSelf ((orderly.mem_walk_iff hid).mp hwalk) hid

theorem Orderly.subtree_eq (hid : id ∈ doc) (hcontent : doc.IsContent id) :
    doc.subtree id = doc.contents id := by
  unfold subtree
  rw [orderly.descendants_eq hid, orderly.contents_eq hid hcontent]

theorem Orderly.flatMap_subtree {children : List NodeId} (h : children ⊆ doc.children parent) :
    children.flatMap doc.subtree = children.flatMap doc.contents := by
  refine List.flatMap_congr fun child hchild => ?_
  have hmem := orderly.wellFormed.children_mem parent child (h hchild)
  exact orderly.subtree_eq hmem (orderly.mem_children_iff.mp (h hchild)).2

theorem Orderly.subtree_sublist_walk (hid : id ∈ doc) :
    (doc.subtree id).Sublist (doc.walk id) := by
  unfold subtree
  rw [orderly.descendants_eq hid]
  exact orderly.flatMap_contents_sublist hid

/-- A node and its descendants are in order. -/
theorem Orderly.inOrder_subtree (hid : id ∈ doc) : doc.InOrder (doc.subtree id) :=
  (orderly.inOrder_walk id).sublist (orderly.subtree_sublist_walk hid)

theorem Orderly.mem_contents_iff (hid : id ∈ doc) :
    x ∈ doc.contents id ↔ doc.AncestorOrSelf id x ∧ doc.IsContent x := by
  rw [Document.mem_contents_iff, orderly.mem_walk_iff hid]

/-- The descendants of a node are the nodes other than attributes that it is an ancestor
of. -/
theorem Orderly.mem_descendants_iff (hid : id ∈ doc) :
    x ∈ doc.descendants id ↔ doc.Ancestor id x ∧ doc.IsContent x := by
  have wf := orderly.wellFormed
  rw [orderly.descendants_eq hid, List.mem_flatMap]
  constructor
  · rintro ⟨child, hchild, hx⟩
    obtain ⟨hbelow, hcontent⟩ :=
      (orderly.mem_contents_iff (wf.children_mem id child hchild)).mp hx
    exact ⟨.head' (wf.children_parent id child hchild) hbelow, hcontent⟩
  · rintro ⟨habove, hcontent⟩
    obtain ⟨child, hparent, hbelow⟩ := Relation.TransGen.head'_iff.mp habove
    have hmem := mem_of_parent? hparent
    have hchild : doc.IsContent child := by
      -- an attribute has nothing below it, so that it would be `x` itself
      intro hattribute
      have hleaf : ¬ doc.IsBranch child := fun hbranch => hbranch.isContent hattribute
      rw [wf.eq_of_ancestorOrSelf hleaf hbelow] at hcontent
      exact hcontent hattribute
    refine ⟨child, orderly.mem_children_iff.mpr ⟨hparent, hchild⟩, ?_⟩
    exact (orderly.mem_contents_iff hmem).mpr ⟨hbelow, hcontent⟩

/-! ## The nodes of a tree -/

/-- The walk from the root of a tree meets the nodes with that root. -/
theorem Orderly.mem_walk_treeRoot_iff (hid : id ∈ doc) :
    x ∈ doc.walk (doc.treeRoot id) ↔ x ∈ doc ∧ doc.treeRoot x = doc.treeRoot id := by
  have wf := orderly.wellFormed
  have hroot := wf.treeRoot_mem_iff.mpr hid
  constructor
  · intro h
    have hbelow := (orderly.mem_walk_iff hroot).mp h
    refine ⟨mem_of_ancestorOrSelf hbelow hroot, ?_⟩
    rw [wf.treeRoot_eq_of_ancestorOrSelf hbelow, treeRoot_of_none (wf.parent?_treeRoot id)]
  · rintro ⟨hx, htree⟩
    rw [← htree]
    exact mem_walk_treeRoot wf orderly.listed orderly.apart hx

theorem Orderly.mem_contents_treeRoot_iff (hid : id ∈ doc) :
    x ∈ doc.contents (doc.treeRoot id) ↔
      x ∈ doc ∧ doc.treeRoot x = doc.treeRoot id ∧ doc.IsContent x := by
  rw [Document.mem_contents_iff, orderly.mem_walk_treeRoot_iff hid, and_assoc]

end Orderly

end XPathTree.Document
