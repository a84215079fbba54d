import XPathTree.Proofs.Document.Growth
import XPathTree.Proofs.Document.Replacement

/-!
# What an edit can do

`Effect` says once what may come of an edit of a branch: it is refused, it finds
nothing to take out, the branch gets an admissible content, or nodes are created and
the first of them is put behind the content or stays detached. `edit_effect` derives
it for every edit of a well-formed document; whatever edits preserve is proved from
`Effect`, without a look at the single edits again.

The updates that put nodes into a branch leave all as it was or write one content
(`Replaces`), as all that could refuse them stands in front of the writes. Only `setContent` can
bring in an attribute: every other new content holds former children and nodes that
passed the check of their type.
-/

namespace XPathTree.Document

/-- No attribute of the content is new among the children. -/
def TakesNoAttribute (doc : Document) (branch : NodeId) (content : List NodeId) : Prop :=
  ∀ id ∈ content, doc.nodeType? id = some .attribute → id ∈ doc.children branch

/-- The kind of the node that an edit creates, with the attributes of that node. -/
def creates (doc : Document) : Edit → Option (NodeKind × List (QName × String))
  | .addElement name attributes =>
    some (.element name (doc.nextHandles attributes.length), attributes)
  | .addText content => some (.text content, [])
  | .addComment content => some (.comment content, [])
  | .addInstruction target data => some (.instruction target data, [])
  | _ => none

/-- What may come of an edit of a handle. An edit that creates nodes is refused
without doing so only if the handle is no branch. -/
inductive Effect (doc : Document) (branch : NodeId) (change : Edit) :
    Document × Except TreeError Outcome → Prop
  | refused (refusal : TreeError) (idle : doc.IsBranch branch → doc.creates change = none) :
      Effect doc branch change (doc, .error refusal)
  | absent (idle : doc.creates change = none) :
      Effect doc branch change (doc, .ok (.removed false))
  | relinked {content : List NodeId} {outcome : Outcome} (found : outcome ≠ .removed false)
      (idle : doc.creates change = none) (ad : doc.Admissible branch content)
      (origin : change = .setContent content ∨ doc.TakesNoAttribute branch content) :
      Effect doc branch change (doc.relink branch content, .ok outcome)
  | unused {kind : NodeKind} {attributes : List (QName × String)} (refusal : TreeError)
      (made : doc.creates change = some (kind, attributes))
      (sprout : doc.Sprout kind attributes) (isBranch : doc.IsBranch branch) :
      Effect doc branch change (doc.grow kind attributes, .error refusal)
  | appended {kind : NodeKind} {attributes : List (QName × String)}
      (made : doc.creates change = some (kind, attributes))
      (sprout : doc.Sprout kind attributes) (isBranch : doc.IsBranch branch)
      (ad : (doc.grow kind attributes).Admissible branch (doc.children branch ++ [doc.next])) :
      Effect doc branch change
        ((doc.grow kind attributes).relink branch (doc.children branch ++ [doc.next]),
          .ok (.node doc.next))

variable {doc : Document} {branch id : NodeId} {content : List NodeId}

/-! ## New contents -/

/-- What comes of an update that writes a whole content or nothing: it was refused, or the
branch has got a content that is allowed. -/
inductive Replaces (doc : Document) (branch : NodeId) (Allowed : List NodeId → Prop) :
    Document × Except TreeError Unit → Prop
  | refused (refusal : TreeError) : Replaces doc branch Allowed (doc, .error refusal)
  | relinked {content : List NodeId} (ad : doc.Admissible branch content)
      (allowed : Allowed content) :
      Replaces doc branch Allowed (doc.relink branch content, .ok ())

theorem Replaces.mono {Allowed Allowed' : List NodeId → Prop}
    {result : Document × Except TreeError Unit} (h : Replaces doc branch Allowed result)
    (himp : ∀ content, Allowed content → Allowed' content) :
    Replaces doc branch Allowed' result := by
  cases h with
  | refused refusal => exact .refused refusal
  | relinked ad allowed => exact .relinked ad (himp _ allowed)

/-- An edit that is such an update and has nothing to tell. -/
theorem Replaces.effect {Allowed : List NodeId → Prop} {update : Update Unit} {change : Edit}
    (h : Replaces doc branch Allowed (doc.apply update)) (idle : doc.creates change = none)
    (origin : ∀ content, Allowed content →
      change = .setContent content ∨ doc.TakesNoAttribute branch content) :
    Effect doc branch change (doc.apply (update >>= fun _ => pure .done)) := by
  rw [apply_bind_pure]
  generalize doc.apply update = result at h
  cases h with
  | refused refusal => exact .refused refusal fun _ => idle
  | relinked ad allowed => exact .relinked nofun idle ad (origin _ allowed)

theorem WellFormed.accepts_of_checkInsertable (wf : doc.WellFormed)
    (h : doc.checkInsertable branch id = .ok ()) : doc.Accepts branch id :=
  (wf.checkDetached_eq_ok_iff.mp (checkInsertable_eq_ok_iff.mp h).1).1

theorem takesNoAttribute_of_sublist (h : content.Sublist (doc.children branch)) :
    doc.TakesNoAttribute branch content :=
  fun _ hid _ => h.subset hid

theorem Accepts.takesNoAttribute_insertIdx (haccepts : doc.Accepts branch id) {index : Nat}
    (hle : index ≤ (doc.children branch).length) :
    doc.TakesNoAttribute branch ((doc.children branch).insertIdx index id) := by
  intro x hx hattribute
  rcases (List.mem_insertIdx hle).mp hx with rfl | hx
  · exact absurd hattribute haccepts.ne_attribute
  · exact hx

theorem takesNoAttribute_otherChildren_append {given : List NodeId}
    (h : ∀ id ∈ given, doc.nodeType? id = some .instruction) :
    doc.TakesNoAttribute branch (doc.otherChildren branch ++ given) := by
  intro id hid hattribute
  rcases List.mem_append.mp hid with hid | hid
  · exact List.mem_of_mem_filter hid
  · rw [h id hid] at hattribute
    cases hattribute

theorem WellFormed.insertChild_replaces (wf : doc.WellFormed) (hbranch : doc.IsBranch branch)
    (index : Nat) :
    Replaces doc branch (doc.TakesNoAttribute branch)
      (doc.apply (insertChild branch index id)) := by
  rw [apply_insertChild]
  by_cases hindex : (doc.children branch).length < index
  · rw [if_pos hindex]
    exact .refused _
  · rw [if_neg hindex]
    cases hcheck : doc.checkInsertable branch id with
    | error refusal => exact .refused refusal
    | ok _ =>
        have hle : index ≤ (doc.children branch).length := Nat.le_of_not_lt hindex
        have haccepts := wf.accepts_of_checkInsertable hcheck
        show Replaces doc branch _ (doc.link branch index id, .ok ())
        rw [wf.link_eq_relink hbranch.mem haccepts.mem hle]
        have ad := wf.admissible_of_perm hbranch hcheck (List.perm_insertIdx id _ hle)
        exact .relinked ad (haccepts.takesNoAttribute_insertIdx hle)

theorem WellFormed.pushChild_replaces (wf : doc.WellFormed) (hbranch : doc.IsBranch branch) :
    Replaces doc branch (doc.TakesNoAttribute branch) (doc.apply (pushChild branch id)) :=
  wf.insertChild_replaces hbranch (doc.children branch).length

theorem WellFormed.setContent_replaces (wf : doc.WellFormed) (hbranch : doc.IsBranch branch)
    (content : List NodeId) :
    Replaces doc branch (· = content) (doc.apply (setContent branch content)) := by
  rw [apply_setContent]
  cases hcheck : doc.checkContent branch [] content with
  | error refusal => exact .refused refusal
  | ok _ => exact .relinked (wf.admissible_of_checkContent_nil hbranch hcheck) rfl

theorem WellFormed.setInstructions_replaces (wf : doc.WellFormed)
    (hbranch : doc.IsBranch branch) (given : List NodeId) :
    Replaces doc branch (doc.TakesNoAttribute branch)
      (doc.apply (setInstructions branch given)) := by
  rw [apply_setInstructions]
  cases hgiven : doc.checkInstructions given with
  | error refusal => exact .refused refusal
  | ok _ =>
      have htakes : doc.TakesNoAttribute branch (doc.otherChildren branch ++ given) :=
        takesNoAttribute_otherChildren_append (checkInstructions_eq_ok_iff.mp hgiven)
      exact (wf.setContent_replaces hbranch _).mono fun content h => h ▸ htakes

/-! ## Removals -/

/-- An edit may leave any part of the children. -/
theorem WellFormed.sublist_effect (wf : doc.WellFormed) (hbranch : doc.IsBranch branch)
    (h : content.Sublist (doc.children branch)) {change : Edit}
    (idle : doc.creates change = none) {outcome : Outcome} (found : outcome ≠ .removed false) :
    Effect doc branch change (doc.relink branch content, .ok outcome) :=
  .relinked found idle (wf.admissible_of_sublist hbranch h)
    (.inr (takesNoAttribute_of_sublist h))

theorem WellFormed.unlink_effect (wf : doc.WellFormed) {index : Nat}
    (h : (doc.children branch)[index]? = some id) {change : Edit}
    (idle : doc.creates change = none) {outcome : Outcome} (found : outcome ≠ .removed false) :
    Effect doc branch change (doc.unlink branch index id, .ok outcome) := by
  rw [wf.unlink_eq_relink h]
  exact wf.sublist_effect (wf.isBranch_of_getElem? h) (List.eraseIdx_sublist _ index) idle found

theorem getElem?_of_indexOf? {index : Nat} (h : doc.indexOf? branch id = some index) :
    (doc.children branch)[index]? = some id := by
  obtain ⟨hlt, heq, _⟩ := List.idxOf?_eq_some_iff.mp h
  rw [List.getElem?_eq_getElem hlt, heq]

/-- Among distinct nodes the place of a node finds it again. -/
theorem idxOf?_getElem {ids : List NodeId} (nodup : ids.Nodup) {index : Nat}
    (h : index < ids.length) : ids.idxOf? ids[index] = some index := by
  refine List.idxOf?_eq_some_iff.mpr ⟨h, rfl, fun earlier hearlier hsame => ?_⟩
  have hindex := nodup.getElem_inj_iff.mp hsame
  omega

theorem getElem?_of_childAt {index : Nat} (h : doc.childAt branch index = .ok id) :
    (doc.children branch)[index]? = some id := by
  unfold childAt at h
  cases hget : (doc.children branch)[index]? with
  | none =>
      rw [hget] at h
      cases h
  | some found =>
      rw [hget] at h
      rw [Except.ok.inj h]

/-- An edit that takes out a node or tells that there is none. -/
theorem WellFormed.takeOut_effect (wf : doc.WellFormed) {update : Update Bool} {change : Edit}
    (idle : doc.creates change = none)
    (h : doc.apply update = (doc, .ok false) ∨
      ∃ id, doc.apply update = doc.apply (takeOut branch id)) :
    Effect doc branch change (doc.apply (update >>= fun found => pure (.removed found))) := by
  rw [apply_bind_pure]
  rcases h with h | ⟨id, h⟩
  · rw [h]
    exact .absent idle
  · rw [h, apply_takeOut]
    cases hindex : doc.indexOf? branch id with
    | none => exact .absent idle
    | some index => exact wf.unlink_effect (getElem?_of_indexOf? hindex) idle nofun

theorem removeChild_cases (doc : Document) (branch id : NodeId) :
    doc.apply (removeChild branch id) = (doc, .ok false) ∨
      ∃ id', doc.apply (removeChild branch id) = doc.apply (takeOut branch id') := by
  rw [apply_removeChild]
  split
  · exact .inl rfl
  · exact .inl rfl
  · exact .inl rfl
  · exact .inr ⟨id, rfl⟩

theorem removeInstruction_cases (doc : Document) (branch : NodeId) (target : String) :
    doc.apply (removeInstruction branch target) = (doc, .ok false) ∨
      ∃ id, doc.apply (removeInstruction branch target) = doc.apply (takeOut branch id) := by
  rw [apply_removeInstruction]
  cases (doc.instructionsFor branch target).head? with
  | none => exact .inl rfl
  | some id => exact .inr ⟨id, rfl⟩

/-! ## Created nodes -/

section Created

variable {kind : NodeKind} {attributes : List (QName × String)}

/-- Nodes above an old node are old. -/
theorem WellFormed.mem_of_ancestor_grow (wf : doc.WellFormed) {a : NodeId}
    (h : (doc.grow kind attributes).Ancestor a id) (hid : id ∈ doc) : a ∈ doc := by
  -- no link from an old node to a new one is made, so that the climb stays among the old
  have step : ∀ {parent child}, (doc.grow kind attributes).Parent parent child →
      child ∈ doc → parent ∈ doc := by
    intro parent child hparent hchild
    unfold Parent at hparent
    rw [parent?_grow, if_neg fun hnew => doc.nextHandles_not_mem hnew hchild] at hparent
    exact wf.parent_mem child parent hparent
  induction h with
  | single h => exact step h hid
  | tail _ h ih => exact ih (step h hid)

/-- Of a node just created only the type is in question. -/
theorem Sprout.checkDetached_next (sprout : doc.Sprout kind attributes) (wf : doc.WellFormed)
    (hbranch : branch ∈ doc) :
    (doc.grow kind attributes).checkDetached branch doc.next =
      checkType (doc.nodeType? branch) kind.nodeType := by
  have hparent : (doc.grow kind attributes).parent? doc.next = none := by
    rw [parent?_grow, if_neg (doc.next_not_mem_nextHandles _)]
    exact parent?_eq_none_of_not_mem doc.next_not_mem
  have habove : ¬ (doc.grow kind attributes).isAncestorOrSelf doc.next branch = true := by
    rw [(sprout.wellFormed wf).isAncestorOrSelf_iff, ancestorOrSelf_iff]
    rintro (heq | habove)
    · exact doc.next_not_mem (heq ▸ hbranch)
    · exact doc.next_not_mem (wf.mem_of_ancestor_grow habove hbranch)
  unfold checkDetached
  rw [nodeType?_grow_next, doc.nodeType?_grow_of_mem kind attributes hbranch, hparent]
  simp only [habove, Option.isSome_none, Bool.false_eq_true, if_false]
  cases checkType (doc.nodeType? branch) kind.nodeType <;> rfl

theorem IsBranch.grow (h : doc.IsBranch branch) : (doc.grow kind attributes).IsBranch branch := by
  have hmem := h.mem
  unfold IsBranch at h ⊢
  rwa [doc.nodeType?_grow_of_mem kind attributes hmem]

/-- A created node that passes the checks goes behind the content. -/
theorem Sprout.appended_effect (sprout : doc.Sprout kind attributes) (wf : doc.WellFormed)
    (hbranch : doc.IsBranch branch) {change : Edit}
    (made : doc.creates change = some (kind, attributes))
    (hcheck : (doc.grow kind attributes).checkInsertable branch doc.next = .ok ()) :
    Effect doc branch change
      ((doc.grow kind attributes).linkLast branch doc.next, .ok (.node doc.next)) := by
  have wf' := sprout.wellFormed wf
  have hnext := (wf'.accepts_of_checkInsertable hcheck).mem
  unfold linkLast
  rw [wf'.link_eq_relink hbranch.grow.mem hnext (Nat.le_refl _), List.insertIdx_length_self,
    children_grow]
  refine .appended made sprout hbranch (wf'.admissible_of_perm hbranch.grow hcheck ?_)
  rw [children_grow]
  exact List.perm_append_singleton _ _

/-- A node is created and then looked at: if it may not enter, it stays behind. -/
theorem Sprout.appendNew_effect (sprout : doc.Sprout kind attributes) (wf : doc.WellFormed)
    (hbranch : doc.IsBranch branch) {change : Edit}
    (made : doc.creates change = some (kind, attributes)) :
    Effect doc branch change
      ((doc.grow kind attributes).apply (.node <$> appendNew branch doc.next)) := by
  rw [map_eq_pure_bind, apply_bind_pure, apply_appendNew]
  cases hcheck : (doc.grow kind attributes).checkInsertable branch doc.next with
  | error refusal => exact .unused refusal made sprout hbranch
  | ok _ => exact sprout.appended_effect wf hbranch made hcheck

/-- Comments and processing instructions go in without a check that could fail. -/
theorem Sprout.checkInsertable_next (sprout : doc.Sprout kind attributes) (wf : doc.WellFormed)
    (hbranch : branch ∈ doc)
    (hkind : kind.nodeType = .comment ∨ kind.nodeType = .instruction) :
    (doc.grow kind attributes).checkInsertable branch doc.next = .ok () := by
  rw [checkInsertable_eq_ok_iff, sprout.checkDetached_next wf hbranch]
  unfold DoublesRoot
  rw [nodeType?_grow_next]
  rcases hkind with hkind | hkind
  · rw [hkind]
    exact ⟨rfl, fun h => by cases h.1⟩
  · rw [hkind]
    exact ⟨rfl, fun h => by cases h.1⟩

end Created

/-! ## All edits -/

theorem sprout_leaf {kind : NodeKind}
    (h : kind.nodeType = .text ∨ kind.nodeType = .comment ∨ kind.nodeType = .instruction) :
    doc.Sprout kind [] := by
  cases kind with
  | text content => exact ⟨NodeType.noConfusion, NodeType.noConfusion, rfl⟩
  | comment content => exact ⟨NodeType.noConfusion, NodeType.noConfusion, rfl⟩
  | instruction target data => exact ⟨NodeType.noConfusion, NodeType.noConfusion, rfl⟩
  | _ => simp [NodeKind.nodeType] at h

/-- What an edit of a branch can do to a well-formed document. -/
theorem WellFormed.editContent_effect (wf : doc.WellFormed) (hbranch : doc.IsBranch branch)
    (change : Edit) : Effect doc branch change (doc.apply (editContent branch change)) := by
  cases change with
  | add node =>
      have hadd : Replaces doc branch (doc.TakesNoAttribute branch)
          (doc.apply (addChild branch node)) := by
        rw [apply_addChild]
        exact wf.pushChild_replaces hbranch
      exact hadd.effect rfl fun _ => .inr
  | push node => exact (wf.pushChild_replaces hbranch).effect rfl fun _ => .inr
  | insert index node => exact (wf.insertChild_replaces hbranch index).effect rfl fun _ => .inr
  | remove node => exact wf.takeOut_effect rfl (doc.removeChild_cases branch node)
  | removeInstruction target =>
      exact wf.takeOut_effect rfl (doc.removeInstruction_cases branch target)
  | removeAt index =>
      rw [editContent, apply_bind_pure, apply_removeChildAt]
      cases hchild : doc.childAt branch index with
      | error refusal => exact .refused refusal fun _ => rfl
      | ok node => exact wf.unlink_effect (getElem?_of_childAt hchild) rfl nofun
  | clear => exact wf.sublist_effect hbranch (List.nil_sublist _) rfl nofun
  | retain keep =>
      rw [apply_retain, wf.retainAsking_eq hbranch.mem]
      exact wf.sublist_effect hbranch (survivors_sublist keep _) rfl nofun
  | setContent content =>
      exact (wf.setContent_replaces hbranch content).effect rfl fun _ h => .inl (h ▸ rfl)
  | setInstructions given =>
      exact (wf.setInstructions_replaces hbranch given).effect rfl fun _ => .inr
  | addElement name attributes =>
      exact (doc.sprout_element name attributes).appendNew_effect wf hbranch rfl
  | addText content =>
      show Effect doc branch _ ((doc.create (.text content)).2.apply
        (.node <$> appendNew branch (doc.create (.text content)).1))
      rw [create_eq_grow]
      exact (sprout_leaf (.inl rfl)).appendNew_effect wf hbranch rfl
  | addComment content =>
      have sprout : doc.Sprout (.comment content) [] := sprout_leaf (.inr (.inl rfl))
      show Effect doc branch _ ((doc.create (.comment content)).2.linkLast branch
        (doc.create (.comment content)).1, .ok (.node (doc.create (.comment content)).1))
      rw [create_eq_grow]
      exact sprout.appended_effect wf hbranch rfl
        (sprout.checkInsertable_next wf hbranch.mem (.inl rfl))
  | addInstruction target data =>
      have sprout : doc.Sprout (.instruction target data) [] := sprout_leaf (.inr (.inr rfl))
      show Effect doc branch _ ((doc.create (.instruction target data)).2.linkLast branch
        (doc.create (.instruction target data)).1,
        .ok (.node (doc.create (.instruction target data)).1))
      rw [create_eq_grow]
      exact sprout.appended_effect wf hbranch rfl
        (sprout.checkInsertable_next wf hbranch.mem (.inr rfl))

/-! ## Any handle -/

theorem edit_of_isBranch (hbranch : doc.IsBranch branch) (change : Edit) :
    doc.edit branch change = doc.apply (editContent branch change) := by
  unfold edit
  rw [apply_check_bind, checkBranch_eq_ok_iff.mpr hbranch]

/-- Every edit of a handle that is no branch meets the same refusal. -/
theorem edit_of_not_isBranch (hbranch : ¬ doc.IsBranch branch) :
    ∃ refusal, ∀ change, doc.edit branch change = (doc, .error refusal) := by
  unfold edit
  cases hcheck : doc.checkBranch .editBranch branch with
  | error refusal => exact ⟨refusal, fun _ => by rw [apply_check_bind, hcheck]⟩
  | ok _ => exact absurd (checkBranch_eq_ok_iff.mp hcheck) hbranch

/-- What an edit of any handle can do to a well-formed document. -/
theorem WellFormed.edit_effect (wf : doc.WellFormed) (branch : NodeId) (change : Edit) :
    Effect doc branch change (doc.edit branch change) := by
  by_cases hbranch : doc.IsBranch branch
  · rw [edit_of_isBranch hbranch]
    exact wf.editContent_effect hbranch change
  · obtain ⟨refusal, hrefused⟩ := edit_of_not_isBranch hbranch
    rw [hrefused]
    exact .refused refusal fun h => absurd h hbranch

end XPathTree.Document
