import Mathlib.Data.List.Induction
import XPathTree.Proofs.Document.Pushes

/-!
# Retaining and clearing child by child

`retain` asks about all children before any link changes, and `clear` takes out all of them at
once. Here both are loops that take a child out of the list they walk: `retainLoop` moves on only
past a child that stays and reads the length of the list anew in each turn, and `clearLoop` takes
the last child until none is left.

In a well-formed document the loops come to the same. The list that `retainLoop` walks consists of
the children kept so far, as many as its index says, and of those it has not come to. Whatever the
answer about the next of these, this remains so, and each child is asked about once, however many
in a row are taken out (`WellFormed.retainLoop_eq`). As a new content makes one before it
irrelevant, what a turn leaves behind is a new content of the document at the start.
-/

namespace XPathTree.Document

variable {doc : Document} {branch id : NodeId} {index : Nat} {kept rest asked : List NodeId}
variable {keep : List NodeId → NodeId → Bool}

/-! ## Loops -/

/-- Asks about the child at an index and moves on if it may stay, or else takes it out, until the
index is behind the content. The nodes asked about come second. -/
def retainLoop (doc : Document) (branch : NodeId) (keep : List NodeId → NodeId → Bool)
    (index : Nat) (asked : List NodeId) : Document × List NodeId :=
  if h : index < (doc.children branch).length then
    let id := (doc.children branch)[index]
    if keep asked id then doc.retainLoop branch keep (index + 1) (asked ++ [id])
    else (doc.unlink branch index id).retainLoop branch keep index (asked ++ [id])
  else (doc, asked)
termination_by (doc.children branch).length - index
decreasing_by
  · omega
  · have hbranch := mem_of_mem_children (List.getElem_mem h)
    rw [children_unlink _ _ _ _ hbranch, if_pos rfl, List.length_eraseIdx_of_lt h]
    omega

/-- Takes out the last child until none is left. -/
def clearLoop (doc : Document) (branch : NodeId) : Document :=
  match h : (doc.children branch).getLast? with
  | none => doc
  | some id => (doc.unlink branch ((doc.children branch).length - 1) id).clearLoop branch
termination_by (doc.children branch).length
decreasing_by
  have hmem := List.mem_of_getLast? h
  have hpos := List.length_pos_of_mem hmem
  rw [children_unlink _ _ _ _ (mem_of_mem_children hmem), if_pos rfl,
    List.length_eraseIdx_of_lt (by omega)]
  omega

theorem retainLoop_of_end (h : (doc.children branch).length ≤ index) :
    doc.retainLoop branch keep index asked = (doc, asked) := by
  rw [retainLoop, dif_neg (Nat.not_lt.mpr h)]

theorem retainLoop_of_child (h : (doc.children branch)[index]? = some id) :
    doc.retainLoop branch keep index asked =
      if keep asked id then doc.retainLoop branch keep (index + 1) (asked ++ [id])
      else (doc.unlink branch index id).retainLoop branch keep index (asked ++ [id]) := by
  obtain ⟨hlt, rfl⟩ := List.getElem?_eq_some_iff.mp h
  rw [retainLoop, dif_pos hlt]

theorem clearLoop_of_nil (h : doc.children branch = []) : doc.clearLoop branch = doc := by
  rw [clearLoop]
  split
  · rfl
  · next hlast => simp [h] at hlast

theorem clearLoop_of_last (h : doc.children branch = rest ++ [id]) :
    doc.clearLoop branch = (doc.unlink branch rest.length id).clearLoop branch := by
  rw [clearLoop]
  split
  · next hlast => simp [h] at hlast
  · next last hlast =>
      obtain rfl : id = last := by simpa [h] using hlast
      simp [h]

/-! ## Turns -/

section Turns

variable (wf : doc.WellFormed)
include wf

/-- Its own children are no new content of a branch. -/
theorem WellFormed.relink_children (hbranch : branch ∈ doc) :
    doc.relink branch (doc.children branch) = doc := by
  refine eq_of_views (by simp) (by simp) (fun x => ?_) fun x => ?_
  · rw [wf.parent?_relink (wf.children_mem branch)]
    by_cases hx : x ∈ doc.children branch
    · rw [if_pos hx, wf.children_parent branch x hx]
    · rw [if_neg hx, if_neg hx]
  · rw [children_relink _ _ _ hbranch]
    split
    · next heq => rw [heq]
    · rfl

/-- Taking out a child leaves a document for which the same new contents are possible, with the
same effect. -/
theorem WellFormed.unlink_cases (h : doc.children branch = kept ++ id :: rest) :
    (doc.unlink branch kept.length id).WellFormed ∧
      (doc.unlink branch kept.length id).children branch = kept ++ rest ∧
      ∀ content ⊆ doc.children branch,
        (doc.unlink branch kept.length id).relink branch content = doc.relink branch content := by
  have hget : (doc.children branch)[kept.length]? = some id := by simp [h]
  have hbranch := wf.isBranch_of_getElem? hget
  have herase : (doc.children branch).eraseIdx kept.length = kept ++ rest := by
    rw [h, List.eraseIdx_append_of_length_le (Nat.le_refl _), Nat.sub_self, List.eraseIdx_cons_zero]
  have hunlink := wf.unlink_eq_relink hget
  rw [herase] at hunlink
  have hsublist : (kept ++ rest).Sublist (doc.children branch) := by
    rw [h]
    exact (List.sublist_cons_self id rest).append_left kept
  have ad := wf.admissible_of_sublist hbranch hsublist
  rw [hunlink]
  refine ⟨ad.wellFormed wf, ?_, fun content hcontent => ?_⟩
  · rw [children_relink _ _ _ hbranch.mem, if_pos rfl]
  · refine ad.relink_relink wf (fun x hx => wf.children_mem branch x (hcontent hx)) fun x hx => ?_
    exact List.mem_append_right _ (hsublist.subset hx)

end Turns

/-! ## Answers -/

theorem survivorsBehind_cons (keep : List NodeId → NodeId → Bool) (asked : List NodeId)
    (id : NodeId) (rest : List NodeId) :
    survivorsBehind keep asked (id :: rest) =
      if keep asked id then id :: survivorsBehind keep (asked ++ [id]) rest
      else survivorsBehind keep (asked ++ [id]) rest := by
  unfold survivorsBehind
  rw [answers, List.filter_cons]
  split
  · rfl
  · rfl

/-- The answer about a node is the one given when the nodes in front of it had been asked about. -/
theorem getElem?_answers (keep : List NodeId → NodeId → Bool) (asked ids : List NodeId)
    (index : Nat) :
    (answers keep asked ids)[index]? =
      ids[index]?.map fun id => (id, keep (asked ++ ids.take index) id) := by
  induction ids generalizing asked index with
  | nil => rfl
  | cons id rest ih =>
      cases index with
      | zero => simp [answers]
      | succ index => simp [answers, ih]

theorem mem_survivors_iff {ids : List NodeId} :
    id ∈ survivors keep ids ↔
      ∃ index, ids[index]? = some id ∧ keep (ids.take index) id = true := by
  constructor
  · intro h
    obtain ⟨⟨found, stays⟩, hfound, rfl⟩ := List.mem_map.mp h
    obtain ⟨hmem, hstays⟩ := List.mem_filter.mp hfound
    obtain ⟨index, hindex⟩ := List.mem_iff_getElem?.mp hmem
    rw [getElem?_answers, Option.map_eq_some_iff] at hindex
    obtain ⟨id, hid, heq⟩ := hindex
    obtain ⟨rfl, rfl⟩ := Prod.mk.inj heq
    exact ⟨index, hid, hstays⟩
  · rintro ⟨index, hid, hkeep⟩
    refine List.mem_map.mpr ⟨(id, true), List.mem_filter.mpr ⟨?_, rfl⟩, rfl⟩
    refine List.mem_iff_getElem?.mpr ⟨index, ?_⟩
    rw [getElem?_answers, hid, Option.map_some, List.nil_append, hkeep]

/-! ## Whole walks -/

section Walks

variable (wf : doc.WellFormed)
include wf

/-- From behind the children kept so far on, the loop asks about the others in order and keeps
those that may stay. -/
theorem WellFormed.retainLoop_eq (keep : List NodeId → NodeId → Bool) (asked : List NodeId)
    (hbranch : branch ∈ doc) (h : doc.children branch = kept ++ rest) :
    doc.retainLoop branch keep kept.length asked =
      (doc.relink branch (kept ++ survivorsBehind keep asked rest), asked ++ rest) := by
  induction rest generalizing doc kept asked with
  | nil =>
      have hsame := wf.relink_children hbranch
      rw [retainLoop_of_end (by simp [h]), List.append_nil]
      rw [h] at hsame
      exact congrArg (·, asked) hsame.symm
  | cons id rest ih =>
      have hget : (doc.children branch)[kept.length]? = some id := by simp [h]
      rw [retainLoop_of_child hget, survivorsBehind_cons]
      by_cases hkeep : keep asked id = true
      · have hnext : doc.children branch = (kept ++ [id]) ++ rest := by simp [h]
        have hloop := ih wf (asked ++ [id]) hbranch hnext
        rw [List.length_append, List.length_singleton] at hloop
        rw [if_pos hkeep, if_pos hkeep, hloop]
        simp
      · obtain ⟨wf', hchildren, hrelink⟩ := wf.unlink_cases h
        have hsublist : (kept ++ survivorsBehind keep (asked ++ [id]) rest).Sublist
            (doc.children branch) := by
          rw [h]
          exact ((survivorsBehind_sublist keep _ rest).cons id).append_left kept
        rw [if_neg hkeep, if_neg hkeep, ih wf' _ (by simpa using hbranch) hchildren,
          hrelink _ hsublist.subset]
        simp

/-- Taking out the last child until none is left is to take out all. -/
theorem WellFormed.clearLoop_eq (hbranch : branch ∈ doc) :
    doc.clearLoop branch = doc.relink branch [] := by
  induction h : doc.children branch using List.reverseRecOn generalizing doc with
  | nil =>
      have hsame := wf.relink_children hbranch
      rw [h] at hsame
      rw [clearLoop_of_nil h, hsame]
  | append_singleton rest id ih =>
      obtain ⟨wf', hchildren, hrelink⟩ := wf.unlink_cases h
      rw [List.append_nil] at hchildren
      rw [clearLoop_of_last h, ih wf' (by simpa using hbranch) hchildren,
        hrelink [] (List.nil_subset _)]

end Walks

/-! ## Edits -/

/-- The branch has kept the children that were accepted, each asked about after those in front of
it, and nothing else has changed. -/
structure Retained (doc : Document) (branch : NodeId) (keep : List NodeId → NodeId → Bool)
    (after : Document) : Prop where
  size : after.size = doc.size
  kind : ∀ id, after.kind? id = doc.kind? id
  order : (after.children branch).Sublist (doc.children branch)
  accepted : ∀ index id, (doc.children branch)[index]? = some id →
    keep ((doc.children branch).take index) id = true →
      id ∈ after.children branch ∧ after.parent? id = some branch
  rejected : ∀ index id, (doc.children branch)[index]? = some id →
    keep ((doc.children branch).take index) id = false →
      id ∉ after.children branch ∧ after.parent? id = none
  children_of_ne : ∀ other, other ≠ branch → after.children other = doc.children other
  parent_other : ∀ id, id ∉ doc.children branch → after.parent? id = doc.parent? id

theorem WellFormed.retained (wf : doc.WellFormed) (hbranch : branch ∈ doc)
    (keep : List NodeId → NodeId → Bool) :
    doc.Retained branch keep (doc.relink branch (survivors keep (doc.children branch))) := by
  have hsublist := survivors_sublist keep (doc.children branch)
  have hchildren := children_relink doc branch (survivors keep (doc.children branch)) hbranch
  have hparent : ∀ id,
      (doc.relink branch (survivors keep (doc.children branch))).parent? id = _ :=
    wf.parent?_relink fun id hid => wf.children_mem branch id (hsublist.subset hid)
  refine
    { size := by simp, kind := by simp, order := ?_, accepted := ?_, rejected := ?_
      children_of_ne := ?_, parent_other := ?_ }
  · rwa [hchildren, if_pos rfl]
  · intro index id hid hkeep
    have hstays : id ∈ survivors keep (doc.children branch) :=
      mem_survivors_iff.mpr ⟨index, hid, hkeep⟩
    rw [hchildren, hparent, if_pos rfl, if_pos hstays]
    exact ⟨hstays, rfl⟩
  · intro index id hid hkeep
    have hgoes : id ∉ survivors keep (doc.children branch) := by
      intro hstays
      -- a child stands at one place, so that there is one answer about it
      obtain ⟨place, hplace, hkept⟩ := mem_survivors_iff.mp hstays
      have hlt := (List.getElem?_eq_some_iff.mp hid).1
      obtain rfl :=
        (List.getElem?_inj hlt (wf.children_nodup branch)).mp (hid.trans hplace.symm)
      rw [hkeep] at hkept
      cases hkept
    rw [hchildren, hparent, if_pos rfl, if_neg hgoes, if_pos (List.mem_of_getElem? hid)]
    exact ⟨hgoes, rfl⟩
  · intro other hne
    rw [hchildren, if_neg hne]
  · intro id hid
    rw [hparent, if_neg fun hstays => hid (hsublist.subset hstays), if_neg hid]

/-- Retaining asks about the children of a branch in order and once each, and detaches those that
are rejected; the others stay as they are, and so does everything else. It comes to the same as
the loop that takes children out of the list it walks. If all children are rejected, the document
is the one after clearing the branch, which comes to the same as taking out the last child until
none is left. -/
theorem Reachable.retain_outcome (reachable : doc.Reachable) (hbranch : doc.IsBranch branch)
    (keep : List NodeId → NodeId → Bool) :
    let result := doc.edit branch (.retain keep)
    result.2 = .ok (.asked (doc.children branch)) ∧
      doc.Retained branch keep result.1 ∧
      doc.retainLoop branch keep 0 [] = (result.1, doc.children branch) ∧
      doc.edit branch .clear = (doc.clearLoop branch, .ok .done) ∧
      ((∀ index id, (doc.children branch)[index]? = some id →
          keep ((doc.children branch).take index) id = false) →
        result.1 = (doc.edit branch .clear).1) := by
  intro result
  have wf := reachable.wellFormed
  have hresult : result = (doc.relink branch (survivors keep (doc.children branch)),
      .ok (.asked (doc.children branch))) := by
    show doc.edit branch (.retain keep) = _
    rw [edit_of_isBranch hbranch, apply_retain, wf.retainAsking_eq hbranch.mem]
  have hclear : doc.edit branch .clear = (doc.relink branch [], .ok .done) :=
    edit_of_isBranch hbranch .clear
  have hloop := wf.retainLoop_eq keep [] hbranch.mem (List.nil_append _).symm
  rw [hresult, hclear, wf.clearLoop_eq hbranch.mem]
  refine ⟨rfl, wf.retained hbranch.mem keep, hloop, rfl, fun hrejected => ?_⟩
  have hnone : survivors keep (doc.children branch) = [] := by
    refine List.eq_nil_iff_forall_not_mem.mpr fun id hid => ?_
    obtain ⟨index, hindex, hkeep⟩ := mem_survivors_iff.mp hid
    rw [hrejected index id hindex] at hkeep
    cases hkeep
  exact congrArg (doc.relink branch) hnone

/-- Of four children the first and the last question are answered with yes, so that two neighbours
go. -/
theorem retain_outcome_neighbours :
    let doc := empty.run [.createElement (.plain "e") [], .edit ⟨1⟩ (.addText "s"),
      .edit ⟨1⟩ (.addComment "c"), .edit ⟨1⟩ (.addComment "d"), .edit ⟨1⟩ (.addText "t")]
    let retained := doc.edit ⟨1⟩ (.retain fun asked _ => asked.length = 0 || asked.length = 3)
    doc.Reachable ∧ doc.IsBranch ⟨1⟩ ∧ retained.2 = .ok (.asked [⟨2⟩, ⟨3⟩, ⟨4⟩, ⟨5⟩]) ∧
      retained.1.children ⟨1⟩ = [⟨2⟩, ⟨5⟩] ∧ retained.1.parent? ⟨3⟩ = none ∧
      retained.1.parent? ⟨4⟩ = none ∧ retained.1.parent? ⟨5⟩ = some ⟨1⟩ ∧
      (doc.edit ⟨1⟩ (.retain fun _ _ => false)).1 = doc.clearLoop ⟨1⟩ := by
  intro doc retained
  have reachable : doc.Reachable := ⟨_, rfl⟩
  have hbranch : doc.IsBranch ⟨1⟩ := by decide
  obtain ⟨hasked, hretained, -⟩ :=
    reachable.retain_outcome hbranch fun asked _ => asked.length = 0 || asked.length = 3
  obtain ⟨-, -, -, hclear, hall⟩ := reachable.retain_outcome hbranch fun _ _ => false
  refine ⟨reachable, hbranch, hasked, by decide, ?_, ?_, ?_, ?_⟩
  · exact (hretained.rejected 1 ⟨3⟩ (by decide) (by decide)).2
  · exact (hretained.rejected 2 ⟨4⟩ (by decide) (by decide)).2
  · exact (hretained.accepted 3 ⟨5⟩ (by decide) (by decide)).2
  · rw [hall fun _ _ _ => rfl, hclear]

end XPathTree.Document
