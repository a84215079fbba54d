import XPathTree.Axis
import XPathTree.Proofs.Axis.Subtree

/-!
# What lies around a node

`following` and `preceding` climb from a node to the root and collect at each level the
subtrees behind it or in front of it. The walk of the whole tree is what stands before the
walk of the node, that walk, and what stands behind it (`Surrounds`). Going down one level,
from a parent to one of its children, the subtrees of the siblings are added on both sides
(`Surrounds.child`), so that every node is surrounded (`Orderly.exists_surrounds`): behind
it stand the subtrees that `following` collects, in front of it those that `preceding`
collects, merged with its ancestors.

Order in the walk is document order. That turns both axes into conditions on the order and
on ancestry, and parts the tree into the node itself and its ancestors, descendants,
followers and predecessors. An attribute is seen from its element: of the nodes other than
attributes, it precedes what its element precedes.
-/

namespace XPathTree.Document

variable {doc : Document} {id parent element x : NodeId} {bound : Nat}
variable {left right before behind : List NodeId}

/-! ## Levels -/

theorem splitSiblings?_of_none (h : doc.parent? id = none) : doc.splitSiblings? id = none := by
  unfold splitSiblings?
  split
  · rfl
  · rw [h]
    rfl

theorem levels_of_none (h : doc.parent? id = none) : doc.levels bound id = [] := by
  cases bound with
  | zero => rfl
  | succ bound =>
      unfold levels
      rw [splitSiblings?_of_none h]

/-- A climb that ends before its bound does not notice a larger one. -/
theorem levels_succ (h : (doc.climb bound id).length < bound) :
    doc.levels (bound + 1) id = doc.levels bound id := by
  induction bound, id, h using climb_induction with
  | root bound id _ hp => rw [levels_of_none hp, levels_of_none hp]
  | child bound id parent _ _ hp ih =>
      rw [levels, levels, hp]
      cases doc.splitSiblings? id with
      | none => rfl
      | some split => exact congrArg (split :: ·) ih

section Climb

variable (orderly : doc.Orderly) (hcontent : doc.IsContent id)
variable (hparent : doc.parent? id = some parent)
variable (hchildren : doc.children parent = left ++ id :: right)
include orderly hcontent hparent hchildren

theorem Orderly.splitSiblings?_eq : doc.splitSiblings? id = some (left, right) := by
  have hnodup := orderly.wellFormed.children_nodup parent
  rw [hchildren] at hnodup
  have hindex : (left ++ id :: right).idxOf? id = some left.length := by
    have hlt : left.length < (left ++ id :: right).length := by simp
    have hget : (left ++ id :: right)[left.length] = id := by simp
    have h := idxOf?_getElem hnodup hlt
    rwa [hget] at h
  unfold splitSiblings?
  rw [if_neg hcontent, hparent]
  simp [hchildren, hindex]

/-- The levels of a node are its own and those of its parent. -/
theorem Orderly.levels_of_parent :
    doc.levels doc.size id = (left, right) :: doc.levels doc.size parent := by
  obtain ⟨bound, hsize, hlt⟩ := orderly.wellFormed.exists_size_eq_succ hparent
  rw [hsize, levels_succ hlt, levels, orderly.splitSiblings?_eq hcontent hparent hchildren,
    hparent]

theorem Orderly.subtreesBehind_of_parent :
    doc.subtreesBehind id = right.flatMap doc.subtree ++ doc.subtreesBehind parent := by
  unfold subtreesBehind
  rw [orderly.levels_of_parent hcontent hparent hchildren, List.flatMap_cons]

theorem Orderly.subtreesInFront_of_parent :
    doc.subtreesInFront id = doc.subtreesInFront parent ++ left.flatMap doc.subtree := by
  unfold subtreesInFront
  rw [orderly.levels_of_parent hcontent hparent hchildren, List.reverse_cons,
    List.flatMap_append, List.flatMap_singleton]

end Climb

theorem subtreesBehind_of_none (h : doc.parent? id = none) : doc.subtreesBehind id = [] := by
  unfold subtreesBehind
  rw [levels_of_none h]
  rfl

theorem subtreesInFront_of_none (h : doc.parent? id = none) : doc.subtreesInFront id = [] := by
  unfold subtreesInFront
  rw [levels_of_none h]
  rfl

/-! ## The walk around a node -/

/-- The walk of a tree is parted around the walk of one of its nodes: behind stand the
subtrees behind the node, in front those in front of it and its ancestors. -/
structure Surrounds (doc : Document) (id : NodeId) (before behind : List NodeId) : Prop where
  walk : doc.walk (doc.treeRoot id) = before ++ (doc.walk id ++ behind)
  behind : doc.subtreesBehind id = behind.filter (doc.IsContent ·)
  inFront : (doc.subtreesInFront id).Sublist before
  merged : (before.filter (doc.IsContent ·)).Perm (doc.subtreesInFront id ++ doc.ancestors id)

theorem surrounds_root (h : doc.parent? id = none) : doc.Surrounds id [] [] := by
  refine ⟨?_, subtreesBehind_of_none h, ?_, ?_⟩
  · rw [treeRoot_of_none h, List.append_nil, List.nil_append]
  · rw [subtreesInFront_of_none h]
  · rw [subtreesInFront_of_none h, ancestors_of_none h]
    exact .nil

section Surrounds

variable (orderly : doc.Orderly)
include orderly

/-- One level further down, the subtrees of the siblings are added on both sides. -/
theorem Surrounds.child (around : doc.Surrounds parent before behind)
    (hparent : doc.parent? id = some parent)
    (hchildren : doc.children parent = left ++ id :: right) :
    doc.Surrounds id (before ++ parent :: (doc.attributes parent ++ left.flatMap doc.walk))
      (right.flatMap doc.walk ++ behind) := by
  have wf := orderly.wellFormed
  have hmem := wf.parent_mem id parent hparent
  have hid : id ∈ doc.children parent := by
    rw [hchildren]
    exact List.mem_append_right _ List.mem_cons_self
  have hcontent := (orderly.mem_children_iff.mp hid).2
  have hleft : left ⊆ doc.children parent := by
    rw [hchildren]
    exact List.subset_append_left _ _
  have hright : right ⊆ doc.children parent := by
    rw [hchildren]
    exact List.subset_append_of_subset_right _ (List.subset_cons_self _ _)
  refine ⟨?_, ?_, ?_, ?_⟩
  · rw [wf.treeRoot_of_parent hparent, around.walk, wf.walk_eq hmem, hchildren]
    simp
  · rw [orderly.subtreesBehind_of_parent hcontent hparent hchildren, around.behind,
      orderly.flatMap_subtree hright, List.filter_append, List.filter_flatMap]
    rfl
  · rw [orderly.subtreesInFront_of_parent hcontent hparent hchildren,
      orderly.flatMap_subtree hleft]
    refine around.inFront.append (.cons parent ?_)
    refine .trans ?_ (List.sublist_append_right _ _)
    show (left.flatMap fun child => (doc.walk child).filter _).Sublist _
    rw [← List.filter_flatMap]
    exact List.filter_sublist
  · have hbranch := (wf.parent_branch id parent hparent).isContent
    rw [orderly.subtreesInFront_of_parent hcontent hparent hchildren,
      orderly.flatMap_subtree hleft, wf.ancestors_of_parent hparent, List.filter_append,
      List.filter_cons_of_pos (by simpa using hbranch), List.filter_append,
      orderly.filter_attributes, List.filter_flatMap, List.nil_append]
    refine (around.merged.append_right _).trans ?_
    rw [List.append_assoc, List.append_assoc]
    exact (List.perm_append_comm.trans List.perm_middle.symm).append_left _

/-- Every node other than an attribute is surrounded. -/
theorem Orderly.exists_surrounds (hcontent : doc.IsContent id) :
    ∃ before behind, doc.Surrounds id before behind := by
  have wf := orderly.wellFormed
  induction id using wf.induction with
  | root id h => exact ⟨[], [], surrounds_root h⟩
  | child id parent h ih =>
      obtain ⟨before, behind, around⟩ := ih (wf.parent_branch id parent h).isContent
      have hchild := orderly.mem_children_iff.mpr ⟨h, hcontent⟩
      obtain ⟨left, right, hchildren⟩ := List.append_of_mem hchild
      exact ⟨_, _, around.child orderly h hchildren⟩

end Surrounds

/-! ## Order and ancestry around a node -/

namespace Surrounds

variable (around : doc.Surrounds id before behind) (orderly : doc.Orderly) (hid : id ∈ doc)
include around orderly

theorem inOrder : doc.InOrder (before ++ (doc.walk id ++ behind)) :=
  around.walk ▸ orderly.inOrder_walk _

theorem inOrder_inFront : doc.InOrder (doc.subtreesInFront id) := by
  refine (around.inOrder orderly).sublist ?_
  exact around.inFront.trans (List.sublist_append_left _ _)

include hid

/-- The nodes behind are those that the node precedes and is no ancestor of. -/
theorem mem_behind_iff :
    x ∈ behind ↔
      x ∈ doc.walk (doc.treeRoot id) ∧ doc.Precedes id x ∧ ¬ doc.Ancestor id x := by
  have hinOrder := around.inOrder orderly
  have hapart := (List.nodup_append.mp (List.nodup_append.mp hinOrder.nodup).2.1).2.2
  have hwalk := orderly.wellFormed.walk_eq hid
  rw [hwalk] at hinOrder
  rw [around.walk]
  constructor
  · intro hx
    refine ⟨List.mem_append_right _ (List.mem_append_right _ hx), ?_, fun habove => ?_⟩
    · exact hinOrder.precedes_of_mem_behind (List.mem_append_right _ hx)
    · exact hapart x ((orderly.mem_walk_iff hid).mpr habove.to_reflTransGen) x hx rfl
  · rintro ⟨hx, hprecedes, habove⟩
    rcases List.mem_append.mp hx with hx | hx
    · exact absurd hprecedes (hinOrder.precedes_of_mem_before hx).asymm
    · refine (List.mem_append.mp hx).resolve_left fun hx => ?_
      rcases ancestorOrSelf_iff.mp ((orderly.mem_walk_iff hid).mp hx) with rfl | h
      · exact not_precedes_self _ hprecedes
      · exact habove h

/-- The nodes in front are those that precede the node. -/
theorem mem_before_iff :
    x ∈ before ↔ x ∈ doc.walk (doc.treeRoot id) ∧ doc.Precedes x id := by
  have hinOrder := around.inOrder orderly
  have hwalk := orderly.wellFormed.walk_eq hid
  rw [hwalk] at hinOrder
  rw [around.walk, hwalk]
  constructor
  · intro hx
    exact ⟨List.mem_append_left _ hx, hinOrder.precedes_of_mem_before hx⟩
  · rintro ⟨hx, hprecedes⟩
    exact (hinOrder.mem_before_iff hx).mpr hprecedes

theorem mem_subtreesBehind_iff :
    x ∈ doc.subtreesBehind id ↔
      x ∈ doc.contents (doc.treeRoot id) ∧ doc.Precedes id x ∧ ¬ doc.Ancestor id x := by
  rw [around.behind, List.mem_filter, around.mem_behind_iff orderly hid,
    Document.mem_contents_iff, decide_eq_true_eq]
  tauto

/-- The subtrees in front hold what precedes the node and is no ancestor of it. -/
theorem mem_subtreesInFront_iff :
    x ∈ doc.subtreesInFront id ↔
      x ∈ doc.contents (doc.treeRoot id) ∧ doc.Precedes x id ∧ ¬ doc.Ancestor x id := by
  have hbefore : (before.filter (doc.IsContent ·)).Nodup :=
    ((List.nodup_append.mp (around.inOrder orderly).nodup).1).filter _
  have hapart := (List.nodup_append.mp (around.merged.nodup_iff.mp hbefore)).2.2
  have hmerged := around.merged.mem_iff (a := x)
  rw [List.mem_filter, around.mem_before_iff orderly hid, List.mem_append,
    orderly.wellFormed.mem_ancestors_iff, decide_eq_true_eq] at hmerged
  rw [Document.mem_contents_iff]
  constructor
  · intro hx
    obtain ⟨⟨hwalk, hprecedes⟩, hcontent⟩ := hmerged.mpr (.inl hx)
    refine ⟨⟨hwalk, hcontent⟩, hprecedes, fun habove => ?_⟩
    exact hapart x hx x (orderly.wellFormed.mem_ancestors_iff.mpr habove) rfl
  · rintro ⟨⟨hwalk, hcontent⟩, hprecedes, habove⟩
    exact (hmerged.mp ⟨⟨hwalk, hprecedes⟩, hcontent⟩).resolve_right habove

end Surrounds

/-! ## Attributes -/

section Attribute

variable (orderly : doc.Orderly)
include orderly

/-- Every attribute stands under an element, which is surrounded. -/
theorem Orderly.exists_element (h : ¬ doc.IsContent id) :
    ∃ element, doc.parent? id = some element ∧ element ∈ doc ∧
      ∃ before behind, doc.Surrounds element before behind := by
  obtain ⟨element, hlisted⟩ := orderly.listed.owned id (not_not.mp h)
  have hparent := orderly.apart.parent element id hlisted
  refine ⟨element, hparent, orderly.wellFormed.parent_mem id element hparent, ?_⟩
  exact orderly.exists_surrounds (orderly.wellFormed.parent_branch id element hparent).isContent

theorem Orderly.isContent_of_ancestor (h : doc.Ancestor id x) : doc.IsContent id := by
  obtain ⟨child, hparent, _⟩ := Relation.TransGen.head'_iff.mp h
  exact (orderly.wellFormed.parent_branch child id hparent).isContent

variable (hattribute : ¬ doc.IsContent id) (hparent : doc.parent? id = some element)
variable (hx : x ∈ doc.contents (doc.treeRoot element))
include hattribute hparent hx

/-- Of the nodes other than attributes, an attribute precedes what its element precedes. -/
theorem Orderly.attribute_precedes_iff : doc.Precedes id x ↔ doc.Precedes element x := by
  have wf := orderly.wellFormed
  have helement := wf.parent_mem id element hparent
  refine ⟨(wf.parent_precedes hparent).trans, fun h => ?_⟩
  obtain ⟨hwalk, hcontent⟩ := Document.mem_contents_iff.mp hx
  obtain ⟨before, behind, around⟩ :=
    orderly.exists_surrounds (wf.parent_branch id element hparent).isContent
  have hinOrder := around.inOrder orderly
  have heq := around.walk
  rw [wf.walk_eq helement, List.cons_append] at hinOrder heq
  rw [heq] at hwalk
  -- the attributes come right behind the element, and `x` is none of them
  have hbehind := (hinOrder.mem_behind_iff hwalk).mpr h
  rw [List.append_assoc] at hbehind hinOrder
  have hrest := (List.mem_append.mp hbehind).resolve_left fun hx =>
    (orderly.mem_attributes_iff.mp hx).2 hcontent
  have hid := orderly.mem_attributes_iff.mpr ⟨hparent, hattribute⟩
  have htail := (List.pairwise_append.mp hinOrder).2.1.of_cons
  exact (List.pairwise_append.mp htail).2.2 id hid x hrest

/-- Of the nodes other than attributes, an attribute comes behind its element and all that
precedes its element. -/
theorem Orderly.precedes_attribute_iff :
    doc.Precedes x id ↔ x = element ∨ doc.Precedes x element := by
  have wf := orderly.wellFormed
  have helement := wf.parent_mem id element hparent
  constructor
  · intro h
    by_cases heq : x = element
    · exact .inl heq
    · refine .inr ((orderly.precedes_or_precedes heq).resolve_right fun h' => ?_)
      exact h.asymm ((orderly.attribute_precedes_iff hattribute hparent hx).mpr h')
  · rintro (rfl | h)
    · exact wf.parent_precedes hparent
    · exact h.trans (wf.parent_precedes hparent)

end Attribute

/-! ## The two axes -/

theorem following_of_isContent (h : doc.IsContent id) :
    doc.following id = doc.subtreesBehind id :=
  if_neg h

theorem preceding_of_isContent (h : doc.IsContent id) :
    doc.preceding id = doc.subtreesInFront id :=
  if_neg h

theorem following_of_attribute (h : ¬ doc.IsContent id) (hparent : doc.parent? id = some element) :
    doc.following id = doc.descendants element ++ doc.subtreesBehind element := by
  unfold following
  rw [if_pos (not_not.mp h), hparent]

theorem preceding_of_attribute (h : ¬ doc.IsContent id) (hparent : doc.parent? id = some element) :
    doc.preceding id = doc.subtreesInFront element := by
  unfold preceding
  rw [if_pos (not_not.mp h), hparent]

section Axes

variable (orderly : doc.Orderly) (hid : id ∈ doc)
include orderly hid

/-- On the following axis stand the nodes of the tree other than attributes that the node
precedes and is no ancestor of. -/
theorem Orderly.mem_following_iff :
    x ∈ doc.following id ↔
      x ∈ doc.contents (doc.treeRoot id) ∧ doc.Precedes id x ∧ ¬ doc.Ancestor id x := by
  have wf := orderly.wellFormed
  by_cases hcontent : doc.IsContent id
  · obtain ⟨before, behind, around⟩ := orderly.exists_surrounds hcontent
    rw [following_of_isContent hcontent]
    exact around.mem_subtreesBehind_iff orderly hid
  · obtain ⟨element, hparent, helement, before, behind, around⟩ := orderly.exists_element hcontent
    have hleaf : ¬ doc.Ancestor id x := fun h => hcontent (orderly.isContent_of_ancestor h)
    rw [following_of_attribute hcontent hparent, List.mem_append,
      orderly.mem_descendants_iff helement, around.mem_subtreesBehind_iff orderly helement,
      wf.treeRoot_of_parent hparent]
    constructor
    · rintro (⟨hbelow, hx⟩ | ⟨hx, hprecedes, _⟩)
      · have hself := hbelow.to_reflTransGen
        have htree := (orderly.mem_contents_treeRoot_iff helement).mpr
          ⟨mem_of_ancestorOrSelf hself helement, wf.treeRoot_eq_of_ancestorOrSelf hself, hx⟩
        have hprecedes := wf.ancestor_precedes hbelow
        exact ⟨htree, (orderly.attribute_precedes_iff hcontent hparent htree).mpr hprecedes, hleaf⟩
      · exact ⟨hx, (orderly.attribute_precedes_iff hcontent hparent hx).mpr hprecedes, hleaf⟩
    · rintro ⟨hx, hprecedes, _⟩
      have h := (orderly.attribute_precedes_iff hcontent hparent hx).mp hprecedes
      by_cases hbelow : doc.Ancestor element x
      · exact .inl ⟨hbelow, (Document.mem_contents_iff.mp hx).2⟩
      · exact .inr ⟨hx, h, hbelow⟩

/-- On the preceding axis stand the nodes of the tree other than attributes that precede
the node and are no ancestors of it. -/
theorem Orderly.mem_preceding_iff :
    x ∈ doc.preceding id ↔
      x ∈ doc.contents (doc.treeRoot id) ∧ doc.Precedes x id ∧ ¬ doc.Ancestor x id := by
  by_cases hcontent : doc.IsContent id
  · obtain ⟨before, behind, around⟩ := orderly.exists_surrounds hcontent
    rw [preceding_of_isContent hcontent]
    exact around.mem_subtreesInFront_iff orderly hid
  · obtain ⟨element, hparent, helement, before, behind, around⟩ := orderly.exists_element hcontent
    rw [preceding_of_attribute hcontent hparent,
      around.mem_subtreesInFront_iff orderly helement,
      orderly.wellFormed.treeRoot_of_parent hparent]
    refine and_congr_right fun hx => ?_
    rw [orderly.precedes_attribute_iff hcontent hparent hx, ancestor_iff_of_parent hparent]
    constructor
    · rintro ⟨hprecedes, habove⟩
      exact ⟨.inr hprecedes, fun h => h.elim hprecedes.ne habove⟩
    · rintro ⟨h, habove⟩
      exact ⟨h.resolve_left fun heq => habove (.inl heq), fun h => habove (.inr h)⟩

omit hid in
theorem Orderly.inOrder_following : doc.InOrder (doc.following id) := by
  by_cases hcontent : doc.IsContent id
  · obtain ⟨before, behind, around⟩ := orderly.exists_surrounds hcontent
    rw [following_of_isContent hcontent, around.behind]
    refine (around.inOrder orderly).sublist ?_
    exact List.filter_sublist.trans
      ((List.sublist_append_right _ _).trans (List.sublist_append_right _ _))
  · obtain ⟨element, hparent, helement, before, behind, around⟩ := orderly.exists_element hcontent
    rw [following_of_attribute hcontent hparent, around.behind]
    refine (around.inOrder orderly).sublist (.trans ?_ (List.sublist_append_right _ _))
    refine List.Sublist.append ?_ List.filter_sublist
    exact (List.sublist_cons_self ..).trans (orderly.subtree_sublist_walk helement)

omit hid in
theorem Orderly.inOrder_preceding : doc.InOrder (doc.preceding id) := by
  by_cases hcontent : doc.IsContent id
  · obtain ⟨before, behind, around⟩ := orderly.exists_surrounds hcontent
    rw [preceding_of_isContent hcontent]
    exact around.inOrder_inFront orderly
  · obtain ⟨element, hparent, _, before, behind, around⟩ := orderly.exists_element hcontent
    rw [preceding_of_attribute hcontent hparent]
    exact around.inOrder_inFront orderly

/-! ## Five axes part a tree -/

/-- Seen from a node other than an attribute, the nodes of its tree other than attributes
are parted into the node itself and what is above, below, behind and in front of it. -/
theorem Orderly.perm_contents_treeRoot (hcontent : doc.IsContent id) :
    ([id] ++ doc.ancestors id ++ doc.descendants id ++ doc.following id ++
      doc.preceding id).Perm (doc.contents (doc.treeRoot id)) := by
  obtain ⟨before, behind, around⟩ := orderly.exists_surrounds hcontent
  have htree : doc.contents (doc.treeRoot id) =
      before.filter (doc.IsContent ·) ++ (doc.subtree id ++ doc.following id) := by
    rw [following_of_isContent hcontent, around.behind, orderly.subtree_eq hid hcontent]
    unfold contents
    rw [around.walk, List.filter_append, List.filter_append]
  rw [htree, preceding_of_isContent hcontent]
  refine .trans ?_ (around.merged.symm.append_right _)
  unfold subtree
  grind

end Axes

/-- The nodes on the following axis of a node are the nodes of its tree, attributes apart,
that it precedes and is no ancestor of; those on the preceding axis precede it and are no
ancestors of it. For a node other than an attribute, the node itself and what is on its
axes upwards, downwards, behind and in front are the nodes of its tree, attributes apart,
each once. -/
theorem axes_part_tree (careful : doc.Careful) (hid : id ∈ doc) :
    ((doc.axis .following id).Nodup ∧ ∀ x, x ∈ doc.axis .following id ↔
      (x ∈ doc ∧ doc.treeRoot x = doc.treeRoot id ∧ doc.nodeType? x ≠ some .attribute) ∧
        doc.Precedes id x ∧ ¬ doc.Ancestor id x) ∧
    ((doc.axis .preceding id).Nodup ∧ ∀ x, x ∈ doc.axis .preceding id ↔
      (x ∈ doc ∧ doc.treeRoot x = doc.treeRoot id ∧ doc.nodeType? x ≠ some .attribute) ∧
        doc.Precedes x id ∧ ¬ doc.Ancestor x id) ∧
    (doc.nodeType? id ≠ some .attribute →
      let parts := [Axis.self, .ancestor, .descendant, .following, .preceding].flatMap
        fun axis => doc.axis axis id
      parts.Nodup ∧ ∀ x, x ∈ parts ↔
        x ∈ doc ∧ doc.treeRoot x = doc.treeRoot id ∧ doc.nodeType? x ≠ some .attribute) := by
  have orderly := careful.orderly
  have htree := fun x => orderly.mem_contents_treeRoot_iff (x := x) hid
  refine ⟨⟨orderly.inOrder_following.nodup, fun x => ?_⟩,
    ⟨orderly.inOrder_preceding.nodup, fun x => ?_⟩, fun hcontent => ?_⟩
  · exact (orderly.mem_following_iff hid).trans (and_congr_left' (htree x))
  · exact (orderly.mem_preceding_iff hid).trans (and_congr_left' (htree x))
  · intro parts
    have hparts : parts.Perm (doc.contents (doc.treeRoot id)) := by
      refine .trans ?_ (orderly.perm_contents_treeRoot hid hcontent)
      show ([id] ++ ((doc.ancestors id).reverse ++ (doc.descendants id ++
        (doc.following id ++ (doc.preceding id ++ []))))).Perm _
      rw [List.append_nil, List.append_assoc, List.append_assoc, List.append_assoc]
      exact ((List.reverse_perm _).append_right _).append_left _
    have hnodup : (doc.contents (doc.treeRoot id)).Nodup :=
      ((orderly.inOrder_walk _).nodup).filter _
    exact ⟨hparts.nodup_iff.mpr hnodup, fun x => hparts.mem_iff.trans (htree x)⟩

/-- The middle child of three, one of which has a child of its own. -/
theorem axes_part_tree_middle :
    let commands : List Command := [.createElement (.plain "e") [(.plain "a", "v")],
      .edit ⟨1⟩ (.addText "s"), .edit ⟨1⟩ (.addElement (.plain "f") []),
      .edit ⟨4⟩ (.addText "t"), .edit ⟨1⟩ (.addComment "c"), .edit ⟨0⟩ (.push ⟨1⟩)]
    let doc := empty.run commands
    doc.Careful ∧ (⟨4⟩ : NodeId) ∈ doc ∧ doc.nodeType? ⟨4⟩ ≠ some .attribute ∧
      doc.axis .following ⟨4⟩ = [⟨6⟩] ∧ doc.axis .preceding ⟨4⟩ = [⟨3⟩] ∧
      doc.Precedes ⟨4⟩ ⟨6⟩ ∧ doc.Precedes ⟨3⟩ ⟨4⟩ ∧
      ([Axis.self, .ancestor, .descendant, .following, .preceding].flatMap
        fun axis => doc.axis axis ⟨4⟩).Nodup := by
  intro commands doc
  have careful : doc.Careful := ⟨commands, by decide, rfl⟩
  have hid : (⟨4⟩ : NodeId) ∈ doc := by decide
  have hcontent : doc.nodeType? ⟨4⟩ ≠ some .attribute := by decide
  have hfollowing : doc.axis .following ⟨4⟩ = [⟨6⟩] := by decide
  have hpreceding : doc.axis .preceding ⟨4⟩ = [⟨3⟩] := by decide
  obtain ⟨⟨_, hbehind⟩, ⟨_, hinFront⟩, hparts⟩ := axes_part_tree careful hid
  refine ⟨careful, hid, hcontent, hfollowing, hpreceding, ?_, ?_, (hparts hcontent).1⟩
  · exact ((hbehind ⟨6⟩).mp (hfollowing ▸ List.mem_cons_self)).2.1
  · exact ((hinFront ⟨3⟩).mp (hpreceding ▸ List.mem_cons_self)).2.1

end XPathTree.Document
