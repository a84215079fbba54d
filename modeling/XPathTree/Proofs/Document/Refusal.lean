import XPathTree.Proofs.Document.Invariant

/-!
# Edits that fail

An edit fails if it is refused or if it finds nothing to take out. No link has been made or
cut then: of the cases of `Effect`, those that give a branch a new content have succeeded. What
a failed edit can leave behind is the node that it was about to add, with the attributes of
that node, in slots that were free before (`GrewBy`).
-/

namespace XPathTree.Document

variable {doc : Document} {branch : NodeId} {change : Edit}

/-- The edit was refused, or there was nothing to take out. -/
def Failed : Except TreeError Outcome → Prop
  | .error _ | .ok (.removed false) => True
  | _ => False

instance : (outcome : Except TreeError Outcome) → Decidable (Failed outcome)
  | .error _ | .ok (.removed false) => .isTrue trivial
  | .ok .done | .ok (.removed true) | .ok (.node _) | .ok (.asked _) => .isFalse id

/-- Slots have been added for a detached node of the given kind and then for its attributes,
with that node as their parent. The slots in use before are as they were, and only their nodes
are in lists of children. -/
structure GrewBy (doc after : Document) (kind : NodeKind) (attributes : List (QName × String)) :
    Prop where
  kept : ∀ id ∈ doc, after.node? id = doc.node? id
  size : after.size = doc.size + 1 + attributes.length
  node : after.node? doc.next = some (.detached kind)
  attributeNode : ∀ i, (hi : i < attributes.length) → after.node? ⟨doc.size + 1 + i⟩ =
    some ⟨.attribute attributes[i].1 attributes[i].2, some doc.next, []⟩
  unlisted : ∀ branch, ∀ id ∈ after.children branch, id ∈ doc

theorem WellFormed.grewBy_grow (wf : doc.WellFormed) (kind : NodeKind)
    (attributes : List (QName × String)) :
    doc.GrewBy (doc.grow kind attributes) kind attributes where
  kept _ hid := doc.node?_grow_of_mem kind attributes hid
  size := doc.size_grow kind attributes
  node := doc.node?_grow_next kind attributes
  attributeNode _ hi := doc.node?_grow_attribute kind attributes hi
  unlisted branch id h := by
    rw [children_grow] at h
    exact wf.children_mem branch id h

/-- A failed edit has created nodes at the most. -/
theorem WellFormed.edit_eq_grown (wf : doc.WellFormed)
    (failed : Failed (doc.edit branch change).2) :
    (doc.edit branch change).1 = doc.grown (.edit branch change) := by
  have heffect := wf.edit_effect branch change
  generalize doc.edit branch change = result at heffect failed
  cases heffect with
  | refused refusal idle => exact (grown_of_none (commandCreates_edit_of_idle idle)).symm
  | absent idle => exact (grown_of_none (commandCreates_edit_of_idle fun _ => idle)).symm
  | @relinked content outcome found =>
      cases outcome with
      | removed hit =>
          cases hit with
          | true => exact failed.elim
          | false => exact absurd rfl found
      | _ => exact failed.elim
  | unused refusal made sprout isBranch =>
      exact (grown_of_some ((commandCreates_edit isBranch change).trans made)).symm
  | appended => exact failed.elim

theorem not_failed_of_editContent {created : NodeId} (hbranch : doc.IsBranch branch)
    (h : (doc.apply (editContent branch change)).2 = .ok (.node created)) :
    ¬ Failed (doc.edit branch change).2 := by
  rw [edit_of_isBranch hbranch, h]
  exact id

/-- What a failed edit leaves behind: the document as it was, except that an element or a text
that could not be added to a branch has been created. -/
def Leaves (doc : Document) (branch : NodeId) (after : Document) : Edit → Prop
  | .addElement name attributes =>
      (doc.IsBranch branch →
        doc.GrewBy after (.element name (doc.nextHandles attributes.length)) attributes) ∧
      (¬ doc.IsBranch branch → after = doc)
  | .addText content =>
      (doc.IsBranch branch → doc.GrewBy after (.text content) []) ∧
      (¬ doc.IsBranch branch → after = doc)
  | _ => after = doc

/-- A failed edit changes no slot that was in use before. It leaves the document as it was,
except that an element or a text that could not be added to a branch has been created, with the
attributes of the element. -/
theorem Reachable.edit_failed (reachable : doc.Reachable)
    (failed : Failed (doc.edit branch change).2) :
    (∀ id ∈ doc, (doc.edit branch change).1.node? id = doc.node? id) ∧
      doc.Leaves branch (doc.edit branch change).1 change := by
  have wf := reachable.wellFormed
  have hafter := wf.edit_eq_grown failed
  have hidle (idle : doc.IsBranch branch → doc.creates change = none) :
      (doc.edit branch change).1 = doc :=
    hafter.trans (grown_of_none (commandCreates_edit_of_idle idle))
  have hmade {kind attributes} (hbranch : doc.IsBranch branch)
      (made : doc.creates change = some (kind, attributes)) :
      doc.GrewBy (doc.edit branch change).1 kind attributes := by
    rw [hafter, grown_of_some ((commandCreates_edit hbranch change).trans made)]
    exact wf.grewBy_grow kind attributes
  constructor
  · intro id hid
    cases hcreates : doc.commandCreates (.edit branch change) with
    | none => rw [hafter, grown_of_none hcreates]
    | some made =>
        rw [hafter, grown_of_some hcreates]
        exact doc.node?_grow_of_mem _ _ hid
  · cases change with
    | addElement name attributes =>
        exact ⟨fun h => hmade h rfl, fun h => hidle fun hbranch => absurd hbranch h⟩
    | addText content =>
        exact ⟨fun h => hmade h rfl, fun h => hidle fun hbranch => absurd hbranch h⟩
    -- comments and processing instructions go in without a check
    | addComment content =>
        exact hidle fun hbranch => absurd failed (not_failed_of_editContent hbranch rfl)
    | addInstruction target data =>
        exact hidle fun hbranch => absurd failed (not_failed_of_editContent hbranch rfl)
    | _ => exact hidle fun _ => rfl

/-- The document node refuses a second element, which stays behind with its attribute. -/
theorem edit_failed_second_root :
    let doc := empty.run [.edit ⟨0⟩ (.addElement (.plain "r") [])]
    let change := Edit.addElement (.plain "e") [(.plain "a", "v")]
    let after := (doc.edit ⟨0⟩ change).1
    doc.Reachable ∧ (doc.edit ⟨0⟩ change).2 = .error .duplicateRootElement ∧
      Failed (doc.edit ⟨0⟩ change).2 ∧ after.node? ⟨0⟩ = doc.node? ⟨0⟩ ∧ after.size = 4 ∧
      after.node? ⟨2⟩ = some (.detached (.element (.plain "e") [⟨3⟩])) ∧
      after.node? ⟨3⟩ = some ⟨.attribute (.plain "a") "v", some ⟨2⟩, []⟩ := by
  intro doc change after
  have reachable : doc.Reachable := ⟨_, rfl⟩
  have failed : Failed (doc.edit ⟨0⟩ change).2 := by decide
  obtain ⟨hkept, hleaves⟩ := reachable.edit_failed failed
  have grew := hleaves.1 (by decide)
  exact ⟨reachable, by decide, failed, hkept ⟨0⟩ (by decide), grew.size, grew.node,
    grew.attributeNode 0 Nat.one_pos⟩

end XPathTree.Document
