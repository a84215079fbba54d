import XPathTree.Proofs.Axis.Surroundings
import XPathTree.Proofs.Document.Reading

/-!
# Axes without a bound

The axes as the partial functions that they stand for, with loops in place of bounded walks
and with nothing to be read from a slot that is not in use. The climb of the following and
preceding axes goes from siblings to siblings and stops where there are none; in a well-formed
document that is at the root at the latest. Everything on an axis has a slot in use, so that
the walks of the subtrees around a node have results, too (`WellFormed.readAxis_eq`).

Nothing here asks that attributes stand apart from children, so that it holds for every
document a caller can hold (`Reachable.loops_end`).
-/

namespace XPathTree.Document

variable {doc : Document} {id parent : NodeId} {node : Node} {ids : List NodeId} {bound : Nat}
variable {found : List (List NodeId × List NodeId)}

/-! ## Loops -/

/-- The siblings in front of a node and those behind it, if it is in a list of siblings. -/
def readSplit (doc : Document) (id : NodeId) :
    Part (Option (List NodeId × List NodeId)) := do
  let node ← doc.read id
  if node.kind.nodeType = .attribute then return none
  match node.parent with
  | none => return none
  | some parent =>
    let above ← doc.read parent
    return (above.children.idxOf? id).map fun index =>
      (above.children.take index, above.children.drop (index + 1))

/-- The loop over the siblings around a node, around its parent and so on upwards: those found,
and the next node. -/
def levelsLoop (doc : Document) :
    List (List NodeId × List NodeId) × NodeId →. List (List NodeId × List NodeId) :=
  PFun.fix fun (found, id) => do
    match ← doc.readSplit id with
    | none => return .inl found
    | some split =>
      let node ← doc.read id
      return .inr (found ++ [split], node.parent.getD id)

/-- A node and its descendants. -/
def readSubtree (doc : Document) (id : NodeId) : Part (List NodeId) := do
  return id :: (← doc.readDescendants id)

/-- The subtrees of several nodes. -/
def readSubtrees (doc : Document) : List NodeId → Part (List NodeId)
  | [] => .some []
  | id :: ids => do return (← doc.readSubtree id) ++ (← doc.readSubtrees ids)

/-- The subtrees behind a node: nearer levels come first. -/
def readBehind (doc : Document) (id : NodeId) : Part (List NodeId) := do
  let levels ← doc.levelsLoop ([], id)
  doc.readSubtrees (levels.flatMap (·.2))

/-- The subtrees in front of a node: outer levels come first. -/
def readInFront (doc : Document) (id : NodeId) : Part (List NodeId) := do
  let levels ← doc.levelsLoop ([], id)
  doc.readSubtrees (levels.reverse.flatMap (·.1))

/-- The nodes after a node that are not below it. -/
def readFollowing (doc : Document) (id : NodeId) : Part (List NodeId) := do
  let node ← doc.read id
  if node.kind.nodeType = .attribute then
    match node.parent with
    | some element => return (← doc.readDescendants element) ++ (← doc.readBehind element)
    | none => return []
  else doc.readBehind id

/-- The nodes before a node that are not above it. -/
def readPreceding (doc : Document) (id : NodeId) : Part (List NodeId) := do
  let node ← doc.read id
  if node.kind.nodeType = .attribute then
    match node.parent with
    | some element => doc.readInFront element
    | none => return []
  else doc.readInFront id

/-- The nodes on an axis of a node, in document order. -/
def readAxis (doc : Document) (axis : Axis) (id : NodeId) : Part (List NodeId) := do
  match axis with
  | .child => return (← doc.read id).children
  | .descendant => doc.readDescendants id
  | .descendantOrSelf => doc.readSubtree id
  | .attribute => return (← doc.read id).kind.attributes
  | .parent => return (← doc.read id).parent.toList
  | .ancestor => return (← doc.readAncestors id).reverse
  | .ancestorOrSelf => return (← doc.readAncestors id).reverse ++ [id]
  | .self => return [id]
  | .followingSibling => return ((← doc.readSplit id).map (·.2)).getD []
  | .precedingSibling => return ((← doc.readSplit id).map (·.1)).getD []
  | .following => doc.readFollowing id
  | .preceding => doc.readPreceding id

/-! ## Levels -/

/-- Siblings around a node are children of its parent. -/
theorem mem_of_splitSiblings? {split : List NodeId × List NodeId} {x : NodeId}
    (h : doc.splitSiblings? id = some split) (hx : x ∈ split.1 ∨ x ∈ split.2) :
    ∃ parent, doc.parent? id = some parent ∧ x ∈ doc.children parent := by
  unfold splitSiblings? at h
  split at h
  · cases h
  · obtain ⟨parent, hparent, h⟩ := Option.bind_eq_some_iff.mp h
    obtain ⟨index, _, h⟩ := Option.bind_eq_some_iff.mp h
    obtain rfl := Option.some.inj h
    exact ⟨parent, hparent, hx.elim List.mem_of_mem_take List.mem_of_mem_drop⟩

section WellFormed

variable (wf : doc.WellFormed)
include wf

theorem WellFormed.readSplit_eq (hid : id ∈ doc) :
    doc.readSplit id = .some (doc.splitSiblings? id) := by
  obtain ⟨node, holds⟩ := exists_holds hid
  unfold readSplit splitSiblings?
  rw [holds.type, holds.parent]
  by_cases hattribute : node.kind.nodeType = .attribute
  · simp [holds.read, hattribute]
  · cases hp : node.parent with
    | none => simp [holds.read, hattribute, hp]
    | some parent =>
        obtain ⟨above, holdsAbove⟩ :=
          exists_holds (wf.parent_mem id parent (holds.parent.trans hp))
        simp [holds.read, hattribute, hp, holdsAbove.read, holdsAbove.children,
          Option.map_eq_bind]

theorem WellFormed.levelsLoop_none (hid : id ∈ doc) (h : doc.splitSiblings? id = none) :
    doc.levelsLoop (found, id) = .some found :=
  Part.eq_some_iff.mpr (PFun.fix_stop (by simp [wf.readSplit_eq hid, h]))

theorem WellFormed.levelsLoop_some (hid : id ∈ doc) {split : List NodeId × List NodeId}
    (h : doc.splitSiblings? id = some split) (hparent : doc.parent? id = some parent) :
    doc.levelsLoop (found, id) = doc.levelsLoop (found ++ [split], parent) := by
  obtain ⟨node, holds⟩ := exists_holds hid
  refine PFun.fix_fwd_eq ?_
  simp [wf.readSplit_eq hid, h, holds.read, ← holds.parent, hparent]

/-- A climb that ends before its bound meets the siblings that the loop meets. -/
theorem WellFormed.levelsLoop_eq (hid : id ∈ doc) (h : (doc.climb bound id).length < bound)
    (found : List (List NodeId × List NodeId)) :
    doc.levelsLoop (found, id) = .some (found ++ doc.levels bound id) := by
  induction bound, id, h using climb_induction generalizing found with
  | root bound id _ hp =>
      rw [wf.levelsLoop_none hid (splitSiblings?_of_none hp), levels_of_none hp, List.append_nil]
  | child bound id parent _ _ hp ih =>
      rw [levels, hp]
      cases hsplit : doc.splitSiblings? id with
      | none => rw [wf.levelsLoop_none hid hsplit, List.append_nil]
      | some split =>
          rw [wf.levelsLoop_some hid hsplit hp, ih (wf.parent_mem id parent hp),
            List.append_assoc]
          rfl

theorem WellFormed.mem_of_mem_levels {split : List NodeId × List NodeId} {x : NodeId}
    (h : split ∈ doc.levels bound id) (hx : x ∈ split.1 ∨ x ∈ split.2) : x ∈ doc := by
  induction bound generalizing id with
  | zero => cases h
  | succ bound ih =>
      unfold levels at h
      split at h
      · next nearest parent hsplit hparent =>
          rcases List.mem_cons.mp h with rfl | h
          · obtain ⟨parent, -, hchild⟩ := mem_of_splitSiblings? hsplit hx
            exact wf.children_mem parent x hchild
          · exact ih h
      · cases h

/-! ## Subtrees -/

theorem WellFormed.readSubtree_eq (hid : id ∈ doc) :
    doc.readSubtree id = .some (doc.subtree id) := by
  simp [readSubtree, (wf.readDescendants_eq hid).1, subtree]

theorem WellFormed.readSubtrees_eq (known : ∀ id ∈ ids, id ∈ doc) :
    doc.readSubtrees ids = .some (ids.flatMap doc.subtree) := by
  induction ids with
  | nil => rfl
  | cons id ids ih =>
      have hrest := ih fun x hx => known x (List.mem_cons_of_mem _ hx)
      simp [readSubtrees, wf.readSubtree_eq (known id List.mem_cons_self), hrest]

theorem WellFormed.readBehind_eq (hid : id ∈ doc) :
    doc.readBehind id = .some (doc.subtreesBehind id) := by
  have hlevels := wf.levelsLoop_eq hid (wf.length_ancestors_lt hid) []
  have hknown : ∀ x ∈ (doc.levels doc.size id).flatMap (·.2), x ∈ doc := by
    intro x hx
    obtain ⟨split, hsplit, hx⟩ := List.mem_flatMap.mp hx
    exact wf.mem_of_mem_levels hsplit (.inr hx)
  simp [readBehind, hlevels, wf.readSubtrees_eq hknown, subtreesBehind, List.flatMap_assoc]

theorem WellFormed.readInFront_eq (hid : id ∈ doc) :
    doc.readInFront id = .some (doc.subtreesInFront id) := by
  have hlevels := wf.levelsLoop_eq hid (wf.length_ancestors_lt hid) []
  have hknown : ∀ x ∈ (doc.levels doc.size id).reverse.flatMap (·.1), x ∈ doc := by
    intro x hx
    obtain ⟨split, hsplit, hx⟩ := List.mem_flatMap.mp hx
    exact wf.mem_of_mem_levels (List.mem_reverse.mp hsplit) (.inl hx)
  simp [readInFront, hlevels, wf.readSubtrees_eq hknown, subtreesInFront, List.flatMap_assoc]

/-! ## All axes -/

theorem WellFormed.readFollowing_eq (hid : id ∈ doc) :
    doc.readFollowing id = .some (doc.following id) := by
  obtain ⟨node, holds⟩ := exists_holds hid
  unfold readFollowing following
  rw [holds.type, holds.parent]
  by_cases hattribute : node.kind.nodeType = .attribute
  · cases hp : node.parent with
    | none => simp [holds.read, hattribute, hp]
    | some element =>
        have hmem := wf.parent_mem id element (holds.parent.trans hp)
        simp [holds.read, hattribute, hp, (wf.readDescendants_eq hmem).1, wf.readBehind_eq hmem]
  · simp [holds.read, hattribute, wf.readBehind_eq hid]

theorem WellFormed.readPreceding_eq (hid : id ∈ doc) :
    doc.readPreceding id = .some (doc.preceding id) := by
  obtain ⟨node, holds⟩ := exists_holds hid
  unfold readPreceding preceding
  rw [holds.type, holds.parent]
  by_cases hattribute : node.kind.nodeType = .attribute
  · cases hp : node.parent with
    | none => simp [holds.read, hattribute, hp]
    | some element =>
        have hmem := wf.parent_mem id element (holds.parent.trans hp)
        simp [holds.read, hattribute, hp, wf.readInFront_eq hmem]
  · simp [holds.read, hattribute, wf.readInFront_eq hid]

/-- Every axis ends and reads nothing but slots in use. -/
theorem WellFormed.readAxis_eq (axis : Axis) (hid : id ∈ doc) :
    doc.readAxis axis id = .some (doc.axis axis id) := by
  obtain ⟨node, holds⟩ := exists_holds hid
  cases axis with
  | child => simp [readAxis, Document.axis, holds.read, holds.children]
  | descendant => exact (wf.readDescendants_eq hid).1
  | descendantOrSelf => exact wf.readSubtree_eq hid
  | «attribute» => simp [readAxis, Document.axis, holds.read, attributes, holds.kind]
  | parent => simp [readAxis, Document.axis, holds.read, holds.parent]
  | ancestor | ancestorOrSelf => simp [readAxis, Document.axis, wf.readAncestors_eq hid]
  | self => rfl
  | followingSibling | precedingSibling => simp [readAxis, Document.axis, wf.readSplit_eq hid]
  | following => exact wf.readFollowing_eq hid
  | preceding => exact wf.readPreceding_eq hid

end WellFormed

/-- In every document a caller can hold, the loops over the tree end and read nothing but
slots in use: the climb over the ancestors, which are distinct and fewer than the slots; the
way to the root of a tree, which has a slot and no parent; the walk over the descendants,
which are distinct; the climb over the siblings around a node and its ancestors; the climb
that gives the order key, whatever positions are recorded; and all axes. -/
theorem Reachable.loops_end (reachable : doc.Reachable) (hid : id ∈ doc) :
    (doc.readAncestors id = .some (doc.ancestors id) ∧
      (doc.ancestors id).length < doc.size ∧ (doc.ancestors id).Nodup) ∧
    (doc.readTreeRoot id = .some (doc.treeRoot id) ∧
      doc.treeRoot id ∈ doc ∧ doc.parent? (doc.treeRoot id) = none) ∧
    (doc.readDescendants id = .some (doc.descendants id) ∧ (doc.descendants id).Nodup) ∧
    doc.levelsLoop ([], id) = .some (doc.levels doc.size id) ∧
    (∀ positions, doc.keyLoop (id, [], positions) =
      .some (doc.recordedKeyAbove doc.size id [] positions)) ∧
    ∀ axis, doc.readAxis axis id = .some (doc.axis axis id) := by
  have wf := reachable.wellFormed
  have hlength := wf.length_ancestors_lt hid
  obtain ⟨hdescendants, hnodup⟩ := wf.readDescendants_eq hid
  exact ⟨⟨wf.readAncestors_eq hid, hlength, wf.climb_nodup⟩,
    ⟨wf.readTreeRoot_eq hid, wf.treeRoot_mem_iff.mpr hid, wf.parent?_treeRoot id⟩,
    ⟨hdescendants, hnodup.of_cons⟩, wf.levelsLoop_eq hid hlength [],
    fun positions => wf.keyLoop_eq hid hlength [] positions,
    fun axis => wf.readAxis_eq axis hid⟩

/-- An attribute that `setContent` made a child of its element, too: it stands among the
descendants of the element, behind a text. -/
theorem loops_end_attribute :
    let doc := empty.run [.createElement (.plain "e") [(.plain "a", "v")],
      .edit ⟨1⟩ (.addText "s"), .edit ⟨1⟩ (.setContent [⟨3⟩, ⟨2⟩]), .edit ⟨0⟩ (.push ⟨1⟩)]
    doc.Reachable ∧ (⟨2⟩ : NodeId) ∈ doc ∧ (⟨1⟩ : NodeId) ∈ doc ∧
      doc.readAncestors ⟨2⟩ = .some [⟨1⟩, ⟨0⟩] ∧ doc.readTreeRoot ⟨2⟩ = .some ⟨0⟩ ∧
      doc.readDescendants ⟨1⟩ = .some [⟨3⟩, ⟨2⟩] ∧
      doc.readAxis .following ⟨2⟩ = .some [⟨3⟩, ⟨2⟩] := by
  intro doc
  have reachable : doc.Reachable := ⟨_, rfl⟩
  have hid : (⟨2⟩ : NodeId) ∈ doc := by decide
  have helement : (⟨1⟩ : NodeId) ∈ doc := by decide
  obtain ⟨⟨hancestors, _⟩, ⟨htree, _⟩, _, _, _, haxis⟩ := reachable.loops_end hid
  obtain ⟨_, _, ⟨hdescendants, _⟩, _⟩ := reachable.loops_end helement
  exact ⟨reachable, hid, helement, hancestors.trans (congrArg Part.some (by decide)),
    htree.trans (congrArg Part.some (by decide)),
    hdescendants.trans (congrArg Part.some (by decide)),
    (haxis .following).trans (congrArg Part.some (by decide))⟩

end XPathTree.Document
