import XPathTree.Proofs.Document.Invariant

/-!
# Ways of appending

A node can be put behind a content in three ways: by pushing it, by adding it, which looks at
its type first, and by creating and adding it in one edit. All of them are one and the same
insertion. The types that adding refuses are those that the insertion refuses before all else,
with the same refusal; and a node that an edit creates is refused, if at all, for its type or as
a second root element, which creating it by a command and adding it afterwards meets as well.

Comments and processing instructions enter without a check when they are created and added in
one edit. As every branch takes them, there is nothing that the check could have refused.
-/

namespace XPathTree

/-- The command that creates the node, and nothing more, that an edit creates and adds. -/
def Edit.creation? : Edit → Option Command
  | .addElement name attributes => some (.createElement name attributes)
  | .addText content => some (.createText content)
  | .addComment content => some (.createComment content)
  | .addInstruction target data => some (.createInstruction target data)
  | _ => none

namespace Document

/-- Creates a node by one command and adds it to a branch by another one. The answer is the
refusal of the second command, or the node that the first one created. -/
def createThenAdd (doc : Document) (branch : NodeId) (creation : Command) :
    Document × Except TreeError Outcome :=
  match doc.perform creation with
  | (grown, .ok (.node id)) =>
    match grown.perform (.edit branch (.add id)) with
    | (changed, .ok _) => (changed, .ok (.node id))
    | (changed, .error refusal) => (changed, .error refusal)
  | (unchanged, outcome) => (unchanged, outcome)

variable {doc : Document} {branch : NodeId}

/-- Adding a node and pushing it are the same edit. -/
theorem edit_add_eq_push (doc : Document) (branch id : NodeId) :
    doc.edit branch (.add id) = doc.edit branch (.push id) := by
  have hcontent : doc.apply (editContent branch (.add id)) =
      doc.apply (editContent branch (.push id)) := by
    rw [editContent, editContent, apply_bind_pure, apply_bind_pure, apply_addChild]
  unfold edit
  rw [apply_check_bind, apply_check_bind, hcontent]

/-- To add a node that was created is to push it. -/
theorem createThenAdd_eq {creation : Command} {result : NodeId × Document}
    (h : doc.perform creation = created result) (hbranch : result.2.IsBranch branch) :
    doc.createThenAdd branch creation =
      result.2.apply (.node <$> appendNew branch result.1) := by
  have hadd : result.2.perform (.edit branch (.add result.1)) =
      ((result.2.apply (pushChild branch result.1)).1,
        (result.2.apply (pushChild branch result.1)).2.map fun _ => .done) := by
    rw [perform, edit_add_eq_push, edit_of_isBranch hbranch, editContent, apply_bind_pure]
  unfold createThenAdd
  rw [h]
  simp only [created, hadd]
  rw [map_eq_pure_bind, apply_bind_pure, apply_pushChild, apply_appendNew]
  cases result.2.checkInsertable branch result.1 with
  | error refusal => rfl
  | ok _ => rfl

section Creations

variable (hbranch : doc.IsBranch branch)
include hbranch

/-- To create a node without attributes and to add it is to push the new node. -/
theorem createThenAdd_of_create {creation : Command} {kind : NodeKind}
    (h : doc.perform creation = created (doc.create kind)) :
    doc.createThenAdd branch creation =
      (doc.create kind).2.apply (.node <$> appendNew branch (doc.create kind).1) := by
  refine createThenAdd_eq h ?_
  rw [create_eq_grow]
  exact hbranch.grow

variable (wf : doc.WellFormed)
include wf

/-- A created comment or processing instruction passes all checks, so that linking it without
them comes to the same. -/
theorem createThenAdd_unchecked {creation : Command} {kind : NodeKind}
    (h : doc.perform creation = created (doc.create kind))
    (hkind : kind.nodeType = .comment ∨ kind.nodeType = .instruction) :
    doc.createThenAdd branch creation =
      ((doc.create kind).2.linkLast branch (doc.create kind).1,
        .ok (.node (doc.create kind).1)) := by
  have sprout : doc.Sprout kind [] := sprout_leaf (.inr hkind)
  rw [createThenAdd_of_create hbranch h, create_eq_grow, map_eq_pure_bind, apply_bind_pure,
    apply_appendNew,
    sprout.checkInsertable_next wf hbranch.mem hkind]
  rfl

/-- An edit that creates a node and adds it does what the two commands do. -/
theorem edit_eq_createThenAdd {change : Edit} {creation : Command}
    (h : change.creation? = some creation) :
    doc.edit branch change = doc.createThenAdd branch creation := by
  rw [edit_of_isBranch hbranch]
  cases change with
  | addElement name attributes =>
      obtain rfl := Option.some.inj h
      have hgrown : (doc.createElement name attributes).2.IsBranch branch := hbranch.grow
      rw [createThenAdd_eq rfl hgrown]
      rfl
  | addText content =>
      obtain rfl := Option.some.inj h
      have hcreated : doc.perform (.createText content) = created (doc.create (.text content)) :=
        rfl
      rw [createThenAdd_of_create hbranch hcreated]
      rfl
  | addComment content =>
      obtain rfl := Option.some.inj h
      exact (createThenAdd_unchecked hbranch wf rfl (.inl rfl)).symm
  | addInstruction target data =>
      obtain rfl := Option.some.inj h
      exact (createThenAdd_unchecked hbranch wf rfl (.inr rfl)).symm
  | _ => cases h

end Creations

/-- The ways of appending agree, refusals included. Adding a node is pushing it, whatever the
two handles are. An edit of a branch that creates an element with its attributes, a text, a
comment or a processing instruction does what the command that creates the node and an edit that
adds it do one after the other, and answers with the node. A comment or a processing instruction
that was created is never refused when it is added. -/
theorem Reachable.ways_of_adding_agree (reachable : doc.Reachable) :
    (∀ branch id, doc.edit branch (.add id) = doc.edit branch (.push id)) ∧
      ∀ branch, doc.IsBranch branch →
        (∀ change creation, Edit.creation? change = some creation →
          doc.edit branch change = doc.createThenAdd branch creation) ∧
        (∀ content, (doc.createThenAdd branch (.createComment content)).2 =
          .ok (.node doc.next)) ∧
        ∀ target data, (doc.createThenAdd branch (.createInstruction target data)).2 =
          .ok (.node doc.next) := by
  have wf := reachable.wellFormed
  refine ⟨edit_add_eq_push doc, fun branch hbranch => ⟨?_, ?_, ?_⟩⟩
  · intro change creation h
    exact edit_eq_createThenAdd hbranch wf h
  · intro content
    rw [createThenAdd_unchecked hbranch wf rfl (.inl rfl)]
    rfl
  · intro target data
    rw [createThenAdd_unchecked hbranch wf rfl (.inr rfl)]
    rfl

/-- The document node has an element. It refuses a second one, which is created all the same,
and it takes a processing instruction. -/
theorem ways_of_adding_agree_root :
    let doc := empty.run [.edit ⟨0⟩ (.addElement (.plain "r") [])]
    let element := Command.createElement (.plain "e") [(.plain "a", "v")]
    doc.Reachable ∧ doc.IsBranch ⟨0⟩ ∧
      doc.edit ⟨0⟩ (.addElement (.plain "e") [(.plain "a", "v")]) = doc.createThenAdd ⟨0⟩ element ∧
      (doc.createThenAdd ⟨0⟩ element).2 = .error .duplicateRootElement ∧
      (doc.createThenAdd ⟨0⟩ element).1.size = 4 ∧
      (doc.createThenAdd ⟨0⟩ (.createInstruction "p" (.ofPairs [("k", "v")]))).2 =
        .ok (.node ⟨2⟩) := by
  intro doc element
  have reachable : doc.Reachable := ⟨_, rfl⟩
  have hbranch : doc.IsBranch ⟨0⟩ := by decide
  obtain ⟨_, hagree⟩ := reachable.ways_of_adding_agree
  obtain ⟨hcreations, _, hinstruction⟩ := hagree ⟨0⟩ hbranch
  exact ⟨reachable, hbranch, hcreations _ element rfl, by decide, by decide, hinstruction _ _⟩

end Document

end XPathTree
