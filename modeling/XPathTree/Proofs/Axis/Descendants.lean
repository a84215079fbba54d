import XPathTree.Proofs.Axis.Subtree
import XPathTree.Proofs.Document.Reading

/-!
# Descendants and string-values by recursion

The handles that a walk down keeps pending stand in for a recursion: what `descendants` lists
is, for each child in order, the child and then what it lists for the child. On a tree this
determines the list (`Orderly.eq_descendants`), since the descendants of a child are fewer
than those of its parent. Text is collected along the list, so that the string-value of a
branch falls apart into what its children contribute.
-/

namespace XPathTree

theorem join_flatMap {α : Type} (f : α → List String) (xs : List α) :
    String.join (xs.flatMap f) = String.join (xs.map fun x => String.join (f x)) := by
  induction xs with
  | nil => rfl
  | cons x xs ih =>
      rw [List.flatMap_cons, String.join_append, ih, List.map_cons, String.join_cons]

namespace Document

/-- The recursion that goes through each child and then through what is below it. -/
def IsPreorder (doc : Document) (list : NodeId → List NodeId) : Prop :=
  ∀ id ∈ doc, list id = (doc.children id).flatMap fun child => child :: list child

/-- What a child adds to the string-value of its parent. -/
def contribution (doc : Document) (child : NodeId) : String :=
  match doc.kind? child with
  | some (.text content) => content
  | some (.element ..) => doc.stringValue child
  | _ => ""

variable {doc : Document} {id child : NodeId} {list : NodeId → List NodeId}

/-- The text in the subtree of a node. -/
theorem join_texts_subtree (id : NodeId) :
    String.join ((doc.subtree id).filterMap fun d => (doc.kind? d).bind (·.text?)) =
      (((doc.kind? id).bind (·.text?)).getD "") ++ doc.textBelow id := by
  unfold subtree textBelow
  cases htext : (doc.kind? id).bind (·.text?) with
  | none => simp [htext]
  | some content => simp [htext, String.join_cons]

section Orderly

variable (orderly : doc.Orderly)
include orderly

theorem Orderly.descendants_eq_flatMap_subtree (hid : id ∈ doc) :
    doc.descendants id = (doc.children id).flatMap doc.subtree := by
  rw [orderly.descendants_eq hid, orderly.flatMap_subtree (List.Subset.refl _)]

theorem Orderly.isPreorder_descendants : doc.IsPreorder doc.descendants :=
  fun _ hid => orderly.descendants_eq_flatMap_subtree hid

/-- A child has fewer descendants than its parent. -/
theorem Orderly.length_descendants_lt (hid : id ∈ doc) (hchild : child ∈ doc.children id) :
    (doc.descendants child).length < (doc.descendants id).length := by
  have hsublist : (doc.subtree child).Sublist (doc.descendants id) := by
    rw [orderly.descendants_eq_flatMap_subtree hid, List.flatMap_def]
    exact List.sublist_flatten_of_mem (List.mem_map_of_mem hchild)
  have hle := hsublist.length_le
  unfold subtree at hle
  rw [List.length_cons] at hle
  omega

/-- On a tree the recursion has one solution. -/
theorem Orderly.eq_descendants (preorder : doc.IsPreorder list) (hid : id ∈ doc) :
    list id = doc.descendants id := by
  -- on the number of descendants, which grows towards the root
  induction hlength : (doc.descendants id).length using Nat.strongRecOn generalizing id with
  | ind length ih =>
      rw [preorder id hid, orderly.isPreorder_descendants id hid]
      refine List.flatMap_congr fun child hchild => ?_
      have hmem := orderly.wellFormed.children_mem id child hchild
      have hlt := orderly.length_descendants_lt hid hchild
      rw [ih _ (hlength ▸ hlt) hmem rfl]

/-! ## String-values -/

theorem Orderly.textBelow_of_leaf (hid : id ∈ doc) (h : ¬ doc.IsBranch id) :
    doc.textBelow id = "" := by
  unfold textBelow
  rw [orderly.descendants_eq_flatMap_subtree hid, orderly.wellFormed.leaf_children id h]
  rfl

/-- The text in the subtree of a child is what the child contributes. -/
theorem Orderly.join_texts_child (hchild : child ∈ doc.children id) :
    String.join ((doc.subtree child).filterMap fun d => (doc.kind? d).bind (·.text?)) =
      doc.contribution child := by
  have wf := orderly.wellFormed
  have hmem := wf.children_mem id child hchild
  have hleaf := orderly.textBelow_of_leaf hmem
  rw [join_texts_subtree]
  unfold contribution
  cases hkind : doc.kind? child with
  | none => exact absurd hmem (kind?_eq_none_iff.mp hkind)
  | some kind =>
      have htype : doc.nodeType? child = some kind.nodeType := by simp [nodeType?, hkind]
      unfold IsBranch at hleaf
      rw [htype] at hleaf
      cases kind with
      | document =>
          rw [(wf.document_iff child).mp htype] at hchild
          exact absurd hchild wf.root_not_mem_children
      | element => simp [NodeKind.text?, stringValue, stringValue?, hkind]
      | text | comment | instruction | «attribute» =>
          simp [NodeKind.text?, hleaf (by simp [NodeKind.nodeType])]

/-- The string-value of a branch is what its children contribute, one after the other. -/
theorem Orderly.stringValue_eq_join (hbranch : doc.IsBranch id) :
    doc.stringValue id = String.join ((doc.children id).map doc.contribution) := by
  have hvalue : doc.stringValue id = doc.textBelow id := by
    unfold IsBranch nodeType? at hbranch
    unfold stringValue stringValue?
    cases hkind : doc.kind? id with
    | none => simp [hkind] at hbranch
    | some kind => cases kind <;> simp_all [NodeKind.nodeType]
  rw [hvalue]
  unfold textBelow
  rw [orderly.descendants_eq_flatMap_subtree hbranch.mem, List.filterMap_flatMap, join_flatMap]
  exact congrArg String.join (List.map_congr_left fun child => orderly.join_texts_child)

end Orderly

/-- The walk down from a node comes to an end, with the list that the recursion through the
children gives, and it alone. The list is in document order, and it holds the nodes other than
attributes that have the node among their ancestors. The string-value of a branch is what its
children contribute to it, one after the other. -/
theorem Careful.descendants_preorder (careful : doc.Careful) (hid : id ∈ doc) :
    doc.readDescendants id = .some (doc.descendants id) ∧
    doc.descendants id =
      (doc.children id).flatMap (fun child => child :: doc.descendants child) ∧
    (∀ list, doc.IsPreorder list → list id = doc.descendants id) ∧
    doc.InOrder (doc.descendants id) ∧
    (∀ d, d ∈ doc.descendants id ↔
      doc.nodeType? d ≠ some .attribute ∧ id ∈ doc.ancestors d) ∧
    (doc.IsBranch id →
      doc.stringValue id = String.join ((doc.children id).map doc.contribution)) := by
  have orderly := careful.orderly
  have wf := orderly.wellFormed
  refine ⟨(wf.readDescendants_eq hid).1, orderly.isPreorder_descendants id hid,
    fun list preorder => orderly.eq_descendants preorder hid, ?_, fun d => ?_,
    orderly.stringValue_eq_join⟩
  · exact (orderly.inOrder_subtree hid).of_cons
  · rw [orderly.mem_descendants_iff hid, wf.mem_ancestors_iff, and_comm]
    rfl

/-- Below an element with an attribute stand texts, a comment and an element with a text. -/
theorem descendants_preorder_nested :
    let commands : List Command := [.createElement (.plain "e") [(.plain "a", "v")],
      .edit ⟨1⟩ (.addText "s"), .edit ⟨1⟩ (.addElement (.plain "f") []),
      .edit ⟨4⟩ (.addText "t"), .edit ⟨1⟩ (.addComment "c"), .edit ⟨1⟩ (.addText "u")]
    let doc := empty.run commands
    doc.Careful ∧ (⟨1⟩ : NodeId) ∈ doc ∧ doc.IsBranch ⟨1⟩ ∧
      doc.readDescendants ⟨1⟩ = .some [⟨3⟩, ⟨4⟩, ⟨5⟩, ⟨6⟩, ⟨7⟩] ∧
      doc.InOrder (doc.descendants ⟨1⟩) ∧ ⟨1⟩ ∈ doc.ancestors ⟨5⟩ ∧
      doc.stringValue ⟨1⟩ = String.join ["s", doc.stringValue ⟨4⟩, "", "u"] := by
  intro commands doc
  have careful : doc.Careful := ⟨commands, by decide, rfl⟩
  have hid : (⟨1⟩ : NodeId) ∈ doc := by decide
  have hbranch : doc.IsBranch ⟨1⟩ := .inr rfl
  have hlist : doc.descendants ⟨1⟩ = [⟨3⟩, ⟨4⟩, ⟨5⟩, ⟨6⟩, ⟨7⟩] := by decide
  obtain ⟨hread, _, _, inOrder, hmem, htext⟩ := careful.descendants_preorder hid
  refine ⟨careful, hid, hbranch, hlist ▸ hread, inOrder, ?_, htext hbranch⟩
  exact ((hmem ⟨5⟩).mp (by decide)).2

end Document

end XPathTree
