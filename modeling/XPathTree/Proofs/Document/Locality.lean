import XPathTree.Proofs.Document.Invariant

/-!
# Edits are local

An edit of a branch touches the content of this branch and nothing else. `Confined` says what
that leaves to be changed: slots are added behind those in use, nodes come into the content of
the branch and go out of it, and only with these the parents change. A new content is confined
to its branch whatever nodes it shares with the old one, and creating nodes first makes no
difference (`Confined.of_grow`), so that every case of `Effect` is confined.

Along a run, the nodes in use keep what they are (`WellFormed.kind?_run`).
-/

namespace XPathTree.Document

variable {doc after : Document} {branch id : NodeId} {content : List NodeId}
variable {kind : NodeKind} {attributes : List (QName × String)}

/-- The second document differs from the first in the content of one branch at the most, and
in slots that were not in use. -/
structure Confined (doc : Document) (branch : NodeId) (after : Document) : Prop where
  size_le : doc.size ≤ after.size
  kind : ∀ id ∈ doc, after.kind? id = doc.kind? id
  children : ∀ other, other ≠ branch → after.children other = doc.children other
  /-- A node with another parent has come into the content or gone out of it. -/
  parent : ∀ id ∈ doc, after.parent? id ≠ doc.parent? id →
    (id ∈ doc.children branch ↔ id ∉ after.children branch)
  /-- A node that has gone out of the content is detached. -/
  detached : ∀ id ∈ doc.children branch, id ∉ after.children branch → after.parent? id = none
  linked : ∀ id ∈ after.children branch, after.parent? id = some branch

/-! ## One edit -/

theorem WellFormed.confined_refl (wf : doc.WellFormed) (branch : NodeId) :
    doc.Confined branch doc where
  size_le := Nat.le_refl _
  kind _ _ := rfl
  children _ _ := rfl
  parent _ _ hparent := absurd rfl hparent
  detached _ hid hgone := absurd hid hgone
  linked := wf.children_parent branch

/-- Former children that are listed again keep their parent, although they are detached with
the rest of the old content first. -/
theorem Admissible.confined_relink (ad : doc.Admissible branch content) (wf : doc.WellFormed) :
    doc.Confined branch (doc.relink branch content) := by
  have hchildren : (doc.relink branch content).children branch = content := by
    rw [children_relink _ _ _ ad.isBranch.mem, if_pos rfl]
  have hparent : ∀ id, (doc.relink branch content).parent? id = _ := wf.parent?_relink ad.mem
  refine
    { size_le := by simp, kind := by simp, children := ?_, parent := ?_, detached := ?_
      linked := ?_ }
  · intro other hne
    rw [children_relink _ _ _ ad.isBranch.mem, if_neg hne]
  · intro id _ hchanged
    rw [hparent] at hchanged
    rw [hchildren]
    by_cases hnew : id ∈ content
    · -- a node of the content that was a child before would have kept its parent
      rw [if_pos hnew] at hchanged
      refine iff_of_false (fun hformer => hchanged ?_) (not_not_intro hnew)
      exact (wf.children_parent branch id hformer).symm
    · by_cases hformer : id ∈ doc.children branch
      · exact iff_of_true hformer hnew
      · rw [if_neg hnew, if_neg hformer] at hchanged
        exact absurd rfl hchanged
  · intro id hformer hgone
    rw [hchildren] at hgone
    rw [hparent, if_neg hgone, if_pos hformer]
  · intro id hid
    rw [hchildren] at hid
    rw [hparent, if_pos hid]

/-- Created nodes are in slots that were not in use, and nothing else about the document is
new. -/
theorem Confined.of_grow (confined : (doc.grow kind attributes).Confined branch after) :
    doc.Confined branch after where
  size_le := by
    have hsize := confined.size_le
    rw [size_grow] at hsize
    omega
  kind id hid := by
    rw [confined.kind id (doc.mem_grow_of_mem kind attributes hid),
      doc.kind?_grow_of_mem kind attributes hid]
  children other hne := by
    rw [confined.children other hne, children_grow]
  parent id hid hchanged := by
    have hold : (doc.grow kind attributes).parent? id = doc.parent? id := by
      rw [parent?_grow, if_neg fun hnew => doc.nextHandles_not_mem hnew hid]
    rw [← hold] at hchanged
    have hmoved := confined.parent id (doc.mem_grow_of_mem kind attributes hid) hchanged
    rwa [children_grow] at hmoved
  detached id hid hgone := by
    refine confined.detached id ?_ hgone
    rwa [children_grow]
  linked := confined.linked

/-- Whatever comes of an edit, it is confined to the branch. -/
theorem WellFormed.confined_edit (wf : doc.WellFormed) (branch : NodeId) (change : Edit) :
    doc.Confined branch (doc.edit branch change).1 := by
  have heffect := wf.edit_effect branch change
  generalize doc.edit branch change = result at heffect
  cases heffect with
  | refused refusal idle => exact wf.confined_refl branch
  | absent idle => exact wf.confined_refl branch
  | relinked found idle ad origin => exact ad.confined_relink wf
  | unused refusal made sprout isBranch =>
      exact ((sprout.wellFormed wf).confined_refl branch).of_grow
  | appended made sprout isBranch ad =>
      exact (ad.confined_relink (sprout.wellFormed wf)).of_grow

/-- An edit of a branch leaves all nodes in use in their slots and as they are, and it leaves
the contents of all other branches alone. A node gets another parent only when it comes into
the content of the branch or goes out of it; afterwards the nodes that have gone out have no
parent, and those in the content have the branch. -/
theorem Reachable.edit_is_local (reachable : doc.Reachable) (branch : NodeId) (change : Edit) :
    doc.Confined branch (doc.edit branch change).1 :=
  reachable.wellFormed.confined_edit branch change

/-- Of the two children of an element the second is listed again, behind a new one. -/
theorem edit_is_local_overlap :
    let doc := empty.run [.createElement (.plain "e") [], .edit ⟨1⟩ (.addText "s"),
      .edit ⟨1⟩ (.addComment "c"), .createText "t", .edit ⟨0⟩ (.push ⟨1⟩)]
    let after := (doc.edit ⟨1⟩ (.setContent [⟨4⟩, ⟨3⟩])).1
    doc.Reachable ∧ doc.children ⟨1⟩ = [⟨2⟩, ⟨3⟩] ∧ after.children ⟨1⟩ = [⟨4⟩, ⟨3⟩] ∧
      after.children ⟨0⟩ = doc.children ⟨0⟩ ∧ after.kind? ⟨2⟩ = doc.kind? ⟨2⟩ ∧
      after.parent? ⟨1⟩ = doc.parent? ⟨1⟩ ∧ after.parent? ⟨2⟩ = none ∧
      after.parent? ⟨3⟩ = some ⟨1⟩ ∧ after.parent? ⟨4⟩ = some ⟨1⟩ := by
  intro doc after
  have reachable : doc.Reachable := ⟨_, rfl⟩
  have hchildren : after.children ⟨1⟩ = [⟨4⟩, ⟨3⟩] := by decide
  have hparent : after.parent? ⟨1⟩ = doc.parent? ⟨1⟩ := by decide
  have confined := reachable.edit_is_local ⟨1⟩ (.setContent [⟨4⟩, ⟨3⟩])
  refine ⟨reachable, by decide, hchildren, confined.children ⟨0⟩ (by decide),
    confined.kind ⟨2⟩ (by decide), hparent, confined.detached ⟨2⟩ (by decide) ?_,
    confined.linked ⟨3⟩ ?_, confined.linked ⟨4⟩ ?_⟩
  · show (⟨2⟩ : NodeId) ∉ after.children ⟨1⟩
    decide
  · show (⟨3⟩ : NodeId) ∈ after.children ⟨1⟩
    decide
  · show (⟨4⟩ : NodeId) ∈ after.children ⟨1⟩
    decide

/-! ## Runs -/

/-- What nodes are after a command is settled once the command has created its nodes. -/
theorem WellFormed.kind?_perform_eq_grown (wf : doc.WellFormed) (command : Command)
    (id : NodeId) : (doc.perform command).1.kind? id = (doc.grown command).kind? id := by
  rcases wf.perform_cases command with h | ⟨branch, content, h⟩
  · rw [h]
  · rw [h.result, kind?_relink]

/-- No command changes what a node in use is. -/
theorem WellFormed.kind?_perform (wf : doc.WellFormed) (hid : id ∈ doc) (command : Command) :
    (doc.perform command).1.kind? id = doc.kind? id := by
  cases command with
  | edit branch change => exact (wf.confined_edit branch change).kind id hid
  | createElement | createText | createComment | createInstruction =>
      rw [perform_eq_grown rfl]
      exact grown_cases (P := fun grown => grown.kind? id = doc.kind? id) rfl
        (fun _ => doc.kind?_grow_of_mem _ _ hid) _

theorem WellFormed.mem_perform (wf : doc.WellFormed) (hid : id ∈ doc) (command : Command) :
    id ∈ (doc.perform command).1 := by
  by_contra hgone
  have hkind := wf.kind?_perform hid command
  rw [kind?_eq_none_iff.mpr hgone] at hkind
  exact kind?_eq_none_iff.mp hkind.symm hid

/-- What a node is when it is created it stays in every run. -/
theorem WellFormed.kind?_run (wf : doc.WellFormed) (hid : id ∈ doc) (commands : List Command) :
    (doc.run commands).kind? id = doc.kind? id := by
  induction commands generalizing doc with
  | nil => rfl
  | cons command rest ih =>
      have hrest := ih (wf.perform command) (wf.mem_perform hid command)
      exact hrest.trans (wf.kind?_perform hid command)

end XPathTree.Document
