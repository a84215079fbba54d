import XPathTree.Proofs.Axis.Surroundings

/-!
# The nodes on an axis

`OnAxis` says by parents and document order which nodes lie in a direction of a node. The
list that `axis` gives holds exactly these (`Orderly.mem_axis_iff`), and it is in document
order on all twelve axes (`Orderly.inOrder_axis`). No axis leaves the tree of the node.
-/

namespace XPathTree.Document

variable {doc : Document} {id parent x y : NodeId} {before behind : List NodeId}

/-- Neither node is an attribute, and both have the same parent. -/
def Siblings (doc : Document) (id other : NodeId) : Prop :=
  doc.IsContent id ∧ doc.IsContent other ∧
    ∃ parent, doc.parent? id = some parent ∧ doc.parent? other = some parent

/-- The first node and the second are in one tree, and the second is no attribute. -/
def InTree (doc : Document) (id other : NodeId) : Prop :=
  other ∈ doc ∧ doc.treeRoot other = doc.treeRoot id ∧ doc.IsContent other

/-- The second node lies in a direction of the first. -/
def OnAxis (doc : Document) (axis : Axis) (id other : NodeId) : Prop :=
  match axis with
  | .child => doc.parent? other = some id ∧ doc.IsContent other
  | .descendant => doc.Ancestor id other ∧ doc.IsContent other
  | .descendantOrSelf => other = id ∨ doc.Ancestor id other ∧ doc.IsContent other
  | .attribute => doc.parent? other = some id ∧ ¬ doc.IsContent other
  | .parent => doc.parent? id = some other
  | .ancestor => doc.Ancestor other id
  | .ancestorOrSelf => doc.AncestorOrSelf other id
  | .self => other = id
  | .followingSibling => doc.Siblings id other ∧ doc.Precedes id other
  | .precedingSibling => doc.Siblings id other ∧ doc.Precedes other id
  | .following => doc.InTree id other ∧ doc.Precedes id other ∧ ¬ doc.Ancestor id other
  | .preceding => doc.InTree id other ∧ doc.Precedes other id ∧ ¬ doc.Ancestor other id

section Lists

variable (orderly : doc.Orderly)
include orderly

/-! ## Lists in order -/

theorem Orderly.inOrder_children (id : NodeId) : doc.InOrder (doc.children id) := by
  have wf := orderly.wellFormed
  have hkey : ∀ x ∈ doc.children id,
      doc.orderKey id ++ [1, ((doc.children id).idxOf? x).getD 0] <+: doc.orderKey x := by
    intro x hx
    exact orderly.apart.orderKey_of_mem_children wf hx ▸ List.prefix_rfl
  refine (pairwise_idxOf? (wf.children_nodup id)).imp_of_mem fun hx hy hlt => ?_
  exact lt_of_places (hkey _ hx) (hkey _ hy) (.inr ⟨rfl, hlt⟩)

theorem Orderly.inOrder_attributes (hid : id ∈ doc) : doc.InOrder (doc.attributes id) := by
  refine (orderly.inOrder_walk id).sublist ?_
  rw [orderly.wellFormed.walk_eq hid]
  exact (List.sublist_append_left _ _).cons id

/-- From the root downwards, the ancestors of a node and the node itself are in order. -/
theorem Orderly.inOrder_ancestors (id : NodeId) :
    doc.InOrder ((doc.ancestors id).reverse ++ [id]) := by
  have wf := orderly.wellFormed
  induction id using wf.induction with
  | root id h =>
      rw [ancestors_of_none h]
      exact .singleton id
  | child id parent h ih =>
      rw [wf.ancestors_of_parent h, List.reverse_cons]
      refine List.pairwise_append.mpr ⟨ih, List.pairwise_singleton _ _, fun x hx y hy => ?_⟩
      obtain rfl := List.mem_singleton.mp hy
      rcases List.mem_append.mp hx with hx | hx
      · have habove := wf.mem_ancestors_iff.mp (List.mem_reverse.mp hx)
        exact wf.ancestor_precedes (habove.tail h)
      · rw [List.mem_singleton.mp hx]
        exact wf.parent_precedes h

/-- A node stands in a list of children with its siblings around it, or it has none. -/
theorem Orderly.siblings_cases (id : NodeId) :
    (doc.axis .precedingSibling id = [] ∧ doc.axis .followingSibling id = [] ∧
        ∀ x, ¬ doc.Siblings id x) ∨
      ∃ parent, doc.parent? id = some parent ∧ doc.IsContent id ∧
        doc.children parent =
          doc.axis .precedingSibling id ++ id :: doc.axis .followingSibling id := by
  have hnone (hsplit : doc.splitSiblings? id = none) :
      doc.axis .precedingSibling id = [] ∧ doc.axis .followingSibling id = [] := by
    unfold axis
    rw [hsplit]
    exact ⟨rfl, rfl⟩
  by_cases hcontent : doc.IsContent id
  · cases hparent : doc.parent? id with
    | none =>
        obtain ⟨hbefore, hbehind⟩ := hnone (splitSiblings?_of_none hparent)
        refine .inl ⟨hbefore, hbehind, ?_⟩
        rintro x ⟨_, _, parent, h, _⟩
        rw [hparent] at h
        cases h
    | some parent =>
        have hchild := orderly.mem_children_iff.mpr ⟨hparent, hcontent⟩
        obtain ⟨left, right, hchildren⟩ := List.append_of_mem hchild
        refine .inr ⟨parent, rfl, hcontent, ?_⟩
        unfold axis
        rw [orderly.splitSiblings?_eq hcontent hparent hchildren]
        exact hchildren
  · obtain ⟨hbefore, hbehind⟩ := hnone (if_pos (not_not.mp hcontent))
    exact .inl ⟨hbefore, hbehind, fun x h => hcontent h.1⟩

theorem Orderly.inOrder_siblings (id : NodeId) :
    doc.InOrder (doc.axis .precedingSibling id ++ id :: doc.axis .followingSibling id) := by
  rcases orderly.siblings_cases id with ⟨hbefore, hbehind, _⟩ | ⟨parent, _, _, hchildren⟩
  · rw [hbefore, hbehind]
    exact .singleton id
  · rw [← hchildren]
    exact orderly.inOrder_children parent

theorem Orderly.siblings_iff (hne : x ≠ id) : doc.Siblings id x ↔
    x ∈ doc.axis .precedingSibling id ++ id :: doc.axis .followingSibling id := by
  rcases orderly.siblings_cases id with ⟨hbefore, hbehind, hno⟩ | ⟨parent, hparent, hid, hchildren⟩
  · rw [hbefore, hbehind]
    exact iff_of_false (hno x) (List.mem_singleton.not.mpr hne)
  · rw [← hchildren, orderly.mem_children_iff]
    constructor
    · rintro ⟨_, hx, parent', h, h'⟩
      rw [hparent] at h
      obtain rfl := Option.some.inj h
      exact ⟨h', hx⟩
    · rintro ⟨h, hx⟩
      exact ⟨hid, hx, parent, hparent, h⟩

/-- The list on each axis is in document order. -/
theorem Orderly.inOrder_axis (axis : Axis) (hid : id ∈ doc) : doc.InOrder (doc.axis axis id) := by
  match axis with
  | .child => exact orderly.inOrder_children id
  | .descendant => exact (orderly.inOrder_subtree hid).sublist (List.sublist_cons_self ..)
  | .descendantOrSelf => exact orderly.inOrder_subtree hid
  | .attribute => exact orderly.inOrder_attributes hid
  | .parent =>
      show doc.InOrder (doc.parent? id).toList
      cases doc.parent? id with
      | none => exact .nil
      | some parent => exact .singleton parent
  | .ancestor => exact (orderly.inOrder_ancestors id).sublist (List.sublist_append_left _ _)
  | .ancestorOrSelf => exact orderly.inOrder_ancestors id
  | .self => exact .singleton id
  | .followingSibling =>
      exact (orderly.inOrder_siblings id).sublist
        ((List.sublist_cons_self ..).trans (List.sublist_append_right _ _))
  | .precedingSibling =>
      exact (orderly.inOrder_siblings id).sublist (List.sublist_append_left _ _)
  | .following => exact orderly.inOrder_following
  | .preceding => exact orderly.inOrder_preceding

/-! ## Members -/

omit orderly in
theorem WellFormed.mem_axis_ancestorOrSelf_iff (wf : doc.WellFormed) :
    x ∈ doc.axis .ancestorOrSelf id ↔ doc.AncestorOrSelf x id := by
  show x ∈ (doc.ancestors id).reverse ++ [id] ↔ _
  rw [List.mem_append, List.mem_reverse, wf.mem_ancestors_iff, List.mem_singleton,
    ancestorOrSelf_iff, or_comm]

/-- The list on each axis holds the nodes that lie in its direction. -/
theorem Orderly.mem_axis_iff (axis : Axis) (hid : id ∈ doc) :
    x ∈ doc.axis axis id ↔ doc.OnAxis axis id x := by
  have wf := orderly.wellFormed
  match axis with
  | .child => exact orderly.mem_children_iff
  | .descendant => exact orderly.mem_descendants_iff hid
  | .descendantOrSelf =>
      exact List.mem_cons.trans (or_congr_right (orderly.mem_descendants_iff hid))
  | .attribute => exact orderly.mem_attributes_iff
  | .parent => exact Option.mem_toList
  | .ancestor => exact List.mem_reverse.trans wf.mem_ancestors_iff
  | .ancestorOrSelf => exact wf.mem_axis_ancestorOrSelf_iff
  | .self => exact List.mem_singleton
  | .followingSibling =>
      have hinOrder := orderly.inOrder_siblings id
      refine ⟨fun hx => ?_, fun ⟨hx, hlt⟩ => ?_⟩
      · have hlt := hinOrder.precedes_of_mem_behind hx
        exact ⟨(orderly.siblings_iff hlt.ne.symm).mpr (by simp [hx]), hlt⟩
      · exact (hinOrder.mem_behind_iff ((orderly.siblings_iff hlt.ne.symm).mp hx)).mpr hlt
  | .precedingSibling =>
      have hinOrder := orderly.inOrder_siblings id
      refine ⟨fun hx => ?_, fun ⟨hx, hlt⟩ => ?_⟩
      · have hlt := hinOrder.precedes_of_mem_before hx
        exact ⟨(orderly.siblings_iff hlt.ne).mpr (by simp [hx]), hlt⟩
      · exact (hinOrder.mem_before_iff ((orderly.siblings_iff hlt.ne).mp hx)).mpr hlt
  | .following =>
      exact (orderly.mem_following_iff hid).trans
        (and_congr_left' (orderly.mem_contents_treeRoot_iff hid))
  | .preceding =>
      exact (orderly.mem_preceding_iff hid).trans
        (and_congr_left' (orderly.mem_contents_treeRoot_iff hid))

/-! ## Trees -/

omit orderly in
theorem descendants_eq_nil_of_not_mem (hid : id ∉ doc) : doc.descendants id = [] := by
  unfold descendants
  rw [children_eq_nil_of_not_mem hid]
  cases doc.size <;> rfl

omit orderly in
/-- From a handle without a slot no axis leads to another one. -/
theorem eq_of_mem_axis_of_not_mem {axis : Axis} (hid : id ∉ doc) (h : x ∈ doc.axis axis id) :
    x = id := by
  have hparent := parent?_eq_none_of_not_mem hid
  have hcontent : doc.IsContent id := fun htype => hid (mem_of_nodeType? htype)
  have hattributes : doc.attributes id = [] :=
    List.eq_nil_iff_forall_not_mem.mpr fun _ hx => hid (mem_of_mem_attributes hx)
  have hdescendants := descendants_eq_nil_of_not_mem hid
  have hfollowing : doc.following id = [] := by
    rw [following_of_isContent hcontent, subtreesBehind_of_none hparent]
  have hpreceding : doc.preceding id = [] := by
    rw [preceding_of_isContent hcontent, subtreesInFront_of_none hparent]
  cases axis <;>
    simp_all [Document.axis, subtree, children_eq_nil_of_not_mem hid,
      splitSiblings?_of_none hparent, ancestors_of_none hparent]

/-- No axis leaves the tree. -/
theorem Orderly.treeRoot_of_mem_axis {axis : Axis} (h : x ∈ doc.axis axis id) :
    doc.treeRoot x = doc.treeRoot id := by
  by_cases hid : id ∉ doc
  · rw [eq_of_mem_axis_of_not_mem hid h]
  have wf := orderly.wellFormed
  have honAxis := (orderly.mem_axis_iff axis (not_not.mp hid)).mp h
  match axis, honAxis with
  | .child, honAxis | .attribute, honAxis => exact wf.treeRoot_of_parent honAxis.1
  | .descendant, honAxis => exact wf.treeRoot_eq_of_ancestorOrSelf honAxis.1.to_reflTransGen
  | .descendantOrSelf, honAxis =>
      refine wf.treeRoot_eq_of_ancestorOrSelf (ancestorOrSelf_iff.mpr ?_)
      exact honAxis.imp Eq.symm And.left
  | .parent, honAxis => exact (wf.treeRoot_of_parent honAxis).symm
  | .ancestor, honAxis => exact (wf.treeRoot_eq_of_ancestorOrSelf honAxis.to_reflTransGen).symm
  | .ancestorOrSelf, honAxis => exact (wf.treeRoot_eq_of_ancestorOrSelf honAxis).symm
  | .self, honAxis => exact congrArg doc.treeRoot honAxis
  | .followingSibling, honAxis | .precedingSibling, honAxis =>
      obtain ⟨⟨_, _, parent, h, h'⟩, _⟩ := honAxis
      exact (wf.treeRoot_of_parent h').trans (wf.treeRoot_of_parent h).symm
  | .following, honAxis | .preceding, honAxis => exact honAxis.1.2.1

end Lists

end XPathTree.Document
