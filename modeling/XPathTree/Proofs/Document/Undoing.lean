import XPathTree.Proofs.Document.Commuting
import XPathTree.Proofs.Document.DocumentOrder
import XPathTree.Proofs.Document.Pushes

/-!
# Insertion and removal undo each other

Linking a node that has no parent and unlinking it again leads back to the same document, and so
does unlinking a child and linking it again at its place (`unlink_link`, `link_unlink`). For the
edits this leaves the checks. Removal has none beyond finding the node. For an insertion after a
removal, the document without the child is one with a shorter content, and what an insertion
checks there is what a replacement of the content would check about the child in the document
as it was (`Admissible.checkDetached_relink`): the child stands for itself and the children are
a permitted content, so that nothing is refused (`Orderly.insertable_unlink`).
-/

namespace XPathTree.Document

variable {doc : Document} {branch id : NodeId} {index : Nat}

/-! ## Links -/

theorem unlink_link (hbranch : branch ∈ doc) (hid : id ∈ doc) (h : doc.parent? id = none) :
    (doc.link branch index id).unlink branch index id = doc := by
  refine eq_of_views (by simp) (by simp) (fun x => ?_) fun x => ?_
  · rw [parent?_unlink _ _ _ _ (by simpa using hid), parent?_link _ _ _ _ hid]
    by_cases heq : x = id
    · rw [if_pos heq, heq, h]
    · rw [if_neg heq, if_neg heq]
  · rw [children_unlink _ _ _ _ (by simpa using hbranch)]
    simp only [children_link _ _ _ _ hbranch, if_true, List.eraseIdx_insertIdx_self]
    by_cases heq : x = branch
    · rw [if_pos heq, heq]
    · rw [if_neg heq, if_neg heq]

theorem link_unlink (hid : id ∈ doc) (h : (doc.children branch)[index]? = some id)
    (hparent : doc.parent? id = some branch) :
    (doc.unlink branch index id).link branch index id = doc := by
  have hbranch : branch ∈ doc := mem_of_mem_children (List.mem_of_getElem? h)
  obtain ⟨hlt, hget⟩ := List.getElem?_eq_some_iff.mp h
  have hback : ((doc.children branch).eraseIdx index).insertIdx index id = doc.children branch := by
    rw [← hget]
    exact List.insertIdx_eraseIdx_getElem hlt
  refine eq_of_views (by simp) (by simp) (fun x => ?_) fun x => ?_
  · rw [parent?_link _ _ _ _ (by simpa using hid), parent?_unlink _ _ _ _ hid]
    by_cases heq : x = id
    · rw [if_pos heq, heq, hparent]
    · rw [if_neg heq, if_neg heq]
  · rw [children_link _ _ _ _ (by simpa using hbranch)]
    simp only [children_unlink _ _ _ _ hbranch, if_true, hback]
    by_cases heq : x = branch
    · rw [if_pos heq, heq]
    · rw [if_neg heq, if_neg heq]

/-! ## Removals -/

theorem edit_removeAt (hbranch : doc.IsBranch branch)
    (h : (doc.children branch)[index]? = some id) :
    doc.edit branch (.removeAt index) = (doc.unlink branch index id, .ok (.node id)) := by
  rw [edit_of_isBranch hbranch, editContent, apply_bind_pure, apply_removeChildAt, childAt, h]
  rfl

/-- A node that is no child is not found. -/
theorem edit_remove_of_not_mem (hbranch : doc.IsBranch branch) (h : id ∉ doc.children branch) :
    doc.edit branch (.remove id) = (doc, .ok (.removed false)) := by
  have hnone : doc.apply (removeChild branch id) = (doc, .ok false) := by
    rw [apply_removeChild, apply_takeOut, indexOf?, List.idxOf?_eq_none_iff.mpr h]
    split <;> rfl
  rw [edit_of_isBranch hbranch, editContent, apply_bind_pure, hnone]
  rfl

section Orderly

variable (orderly : doc.Orderly)
include orderly

/-- A child is found at its place. -/
theorem Orderly.edit_remove (h : (doc.children branch)[index]? = some id) :
    doc.edit branch (.remove id) = (doc.unlink branch index id, .ok (.removed true)) := by
  have wf := orderly.wellFormed
  have hchild := List.mem_of_getElem? h
  have hindex : doc.indexOf? branch id = some index := by
    obtain ⟨hlt, rfl⟩ := List.getElem?_eq_some_iff.mp h
    exact idxOf?_getElem (wf.children_nodup branch) hlt
  have hremove : doc.apply (removeChild branch id) =
      (doc.unlink branch index id, .ok true) := by
    rw [apply_removeChild, apply_takeOut, hindex]
    split
    · next htype => exact absurd (wf.children_mem branch id hchild) (nodeType?_eq_none_iff.mp htype)
    · next htype =>
        rw [(wf.document_iff id).mp htype] at hchild
        exact absurd hchild wf.root_not_mem_children
    · next htype => exact absurd htype (orderly.apart.not_child branch id hchild)
    · rfl
  rw [edit_of_isBranch (wf.isBranch_of_getElem? h), editContent, apply_bind_pure, hremove]
  rfl

/-- After it was taken out a child may enter again, at any place that is left. -/
theorem Orderly.insertable_unlink (h : (doc.children branch)[index]? = some id) :
    (doc.unlink branch index id).Insertable branch index id := by
  have wf := orderly.wellFormed
  have hparent := wf.parent?_of_getElem? h
  have hbranch := wf.isBranch_of_getElem? h
  have hperm := cons_eraseIdx_perm h
  have ad := wf.admissible_of_sublist hbranch (List.eraseIdx_sublist (doc.children branch) index)
  have hchildren := children_relink doc branch ((doc.children branch).eraseIdx index) hbranch.mem
  rw [wf.unlink_eq_relink h]
  have hchecked : (doc.relink branch ((doc.children branch).eraseIdx index)).checkDetached
      branch id = .ok () := by
    rw [ad.checkDetached_relink wf orderly.listed, checkEntry_eq_ok_iff]
    · exact ⟨mem_of_parent? hparent, by simpa using wf.not_mem_eraseIdx h, .inl hparent⟩
    · intro x hx hmem
      have htype := orderly.listed.type branch x hx
      exact orderly.apart.not_child branch x (hperm.mem_iff.mp hmem) htype
  obtain ⟨haccepts, hdetached, habove⟩ := (ad.wellFormed wf).checkDetached_eq_ok_iff.mp hchecked
  refine ⟨by simpa using hbranch, ?_, haccepts, hdetached, habove, ?_⟩
  · obtain ⟨hlt, -⟩ := List.getElem?_eq_some_iff.mp h
    rw [hchildren, if_pos rfl, List.length_eraseIdx_of_lt hlt]
    omega
  · rw [ad.doublesRoot_relink_iff wf]
    rintro ⟨hdocument, hexceeds⟩
    have hle := wf.root_elements
    rw [elementCount_perm ((List.reverse_perm _).cons id |>.trans hperm),
      (wf.document_iff branch).mp hdocument] at hexceeds
    omega

theorem Orderly.edit_insert_unlink (h : (doc.children branch)[index]? = some id) :
    (doc.unlink branch index id).edit branch (.insert index id) = (doc, .ok .done) := by
  have wf := orderly.wellFormed
  have hparent := wf.parent?_of_getElem? h
  have ad := wf.admissible_of_sublist (wf.isBranch_of_getElem? h)
    (List.eraseIdx_sublist (doc.children branch) index)
  have wf' : (doc.unlink branch index id).WellFormed := by
    rw [wf.unlink_eq_relink h]
    exact ad.wellFormed wf
  refine wf'.edit_insert_eq_ok_iff.mpr ⟨orderly.insertable_unlink h, ?_, rfl⟩
  exact (link_unlink (mem_of_parent? hparent) h hparent).symm

theorem Orderly.edit_insert_removeAt {changed : Document} {outcome : Outcome}
    (h : doc.edit branch (.insert index id) = (changed, .ok outcome)) :
    changed.edit branch (.removeAt index) = (doc, .ok (.node id)) := by
  obtain ⟨hins, rfl, -⟩ := orderly.wellFormed.edit_insert_eq_ok_iff.mp h
  have hbranch : (doc.link branch index id).IsBranch branch := by
    simpa [IsBranch] using hins.isBranch
  have hget : ((doc.link branch index id).children branch)[index]? = some id := by
    rw [children_link _ _ _ _ hins.isBranch.mem, if_pos rfl, List.getElem?_insertIdx_self,
      if_pos hins.inRange]
  rw [edit_removeAt hbranch hget, unlink_link hins.isBranch.mem hins.mem hins.detached]

/-- A child is taken out by its handle or by its place, but once, and enters again. -/
theorem Orderly.edit_remove_insert (h : (doc.children branch)[index]? = some id) :
    ∃ removed, doc.edit branch (.remove id) = (removed, .ok (.removed true)) ∧
      doc.edit branch (.removeAt index) = (removed, .ok (.node id)) ∧
      removed.edit branch (.remove id) = (removed, .ok (.removed false)) ∧
      removed.edit branch (.insert index id) = (doc, .ok .done) := by
  have wf := orderly.wellFormed
  have hbranch := wf.isBranch_of_getElem? h
  have hbranch' : (doc.unlink branch index id).IsBranch branch := by
    simpa [IsBranch] using hbranch
  have hgone : id ∉ (doc.unlink branch index id).children branch := by
    rw [children_unlink _ _ _ _ hbranch.mem, if_pos rfl]
    exact wf.not_mem_eraseIdx h
  exact ⟨_, orderly.edit_remove h, edit_removeAt hbranch h,
    edit_remove_of_not_mem hbranch' hgone, orderly.edit_insert_unlink h⟩

/-- A removal finds the children of the branch, and nothing else. -/
theorem Orderly.edit_remove_iff :
    (doc.edit branch (.remove id)).2 = .ok (.removed true) ↔ id ∈ doc.children branch := by
  have wf := orderly.wellFormed
  constructor
  · intro h
    by_contra hchild
    by_cases hbranch : doc.IsBranch branch
    · rw [edit_remove_of_not_mem hbranch hchild] at h
      cases h
    · obtain ⟨refusal, hrefused⟩ := edit_of_not_isBranch hbranch
      rw [hrefused] at h
      cases h
  · intro hchild
    obtain ⟨index, hget⟩ := List.mem_iff_getElem?.mp hchild
    rw [orderly.edit_remove hget]

end Orderly

/-- An insertion is undone by the removal of what stands at its place, which returns the node.
The child at a place is taken out by its handle as by its place, but once, and inserting it at
the place undoes that. A removal finds a node exactly when the node is a child of the branch. -/
theorem Careful.insert_remove_undo (careful : doc.Careful) (branch : NodeId) :
    (∀ index id changed outcome,
      doc.edit branch (.insert index id) = (changed, .ok outcome) →
        changed.edit branch (.removeAt index) = (doc, .ok (.node id))) ∧
    (∀ index, index < (doc.children branch).length →
      ∃ id removed, doc.childAt branch index = .ok id ∧
        doc.edit branch (.remove id) = (removed, .ok (.removed true)) ∧
        doc.edit branch (.removeAt index) = (removed, .ok (.node id)) ∧
        removed.edit branch (.remove id) = (removed, .ok (.removed false)) ∧
        removed.edit branch (.insert index id) = (doc, .ok .done)) ∧
    ∀ id, (doc.edit branch (.remove id)).2 = .ok (.removed true) ↔
      id ∈ doc.children branch := by
  have orderly := careful.orderly
  refine ⟨fun index id changed outcome h => orderly.edit_insert_removeAt h, ?_,
    fun id => orderly.edit_remove_iff⟩
  intro index hindex
  have hget := List.getElem?_eq_getElem hindex
  obtain ⟨removed, hundone⟩ := orderly.edit_remove_insert hget
  refine ⟨_, removed, ?_, hundone⟩
  rw [childAt, hget]

/-- A text goes in between two children, and the root element leaves the document node and
comes back. -/
theorem insert_remove_undo_root :
    let commands : List Command := [.createElement (.plain "e") [(.plain "a", "v")],
      .edit ⟨1⟩ (.addText "s"), .edit ⟨1⟩ (.addComment "c"), .createText "t",
      .edit ⟨0⟩ (.push ⟨1⟩)]
    let doc := empty.run commands
    let inserted := doc.edit ⟨1⟩ (.insert 1 ⟨5⟩)
    doc.Careful ∧ inserted.2 = .ok .done ∧ inserted.1.children ⟨1⟩ = [⟨3⟩, ⟨5⟩, ⟨4⟩] ∧
      inserted.1.edit ⟨1⟩ (.removeAt 1) = (doc, .ok (.node ⟨5⟩)) ∧
      doc.childAt ⟨0⟩ 0 = .ok ⟨1⟩ ∧
      (∃ id removed, doc.childAt ⟨0⟩ 0 = .ok id ∧
        doc.edit ⟨0⟩ (.remove id) = (removed, .ok (.removed true)) ∧
        removed.edit ⟨0⟩ (.insert 0 id) = (doc, .ok .done)) ∧
      (doc.edit ⟨1⟩ (.remove ⟨2⟩)).2 ≠ .ok (.removed true) := by
  intro commands doc inserted
  have careful : doc.Careful := ⟨commands, by decide, rfl⟩
  have hinserted : inserted.2 = .ok .done := by decide
  obtain ⟨hundo, _, hfound⟩ := careful.insert_remove_undo ⟨1⟩
  obtain ⟨_, hredo, _⟩ := careful.insert_remove_undo ⟨0⟩
  refine ⟨careful, hinserted, by decide, ?_, by decide, ?_, ?_⟩
  · exact hundo 1 ⟨5⟩ inserted.1 .done (Prod.ext rfl hinserted)
  · obtain ⟨id, removed, hat, hremove, _, _, hinsert⟩ := hredo 0 (by decide)
    exact ⟨id, removed, hat, hremove, hinsert⟩
  · -- an attribute of the element is no child of it
    exact (hfound ⟨2⟩).not.mpr (by decide)

end XPathTree.Document
