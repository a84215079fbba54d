import XPathTree.Proofs.Document.Invariant

/-!
# Insertions in either order

`Insertable` collects what an insertion asks of a node and a place; an insertion is made exactly
then, and is nothing but the link (`edit_insert_eq_ok_iff`). Insertions of two nodes into two
branches read and write different slots, except for the test for cycles, where a node may hang
above the branch that the other node enters. Ancestry in a linked document is ancestry in the
document, or it leads over the new link (`ancestorOrSelf_link_iff`). So if the second order closed
a cycle, each node would be above the branch of the other, and the first order would have closed
that cycle, too.
-/

namespace XPathTree.Document

variable {doc : Document} {branch branch' id id' a x : NodeId} {index index' : Nat}

/-! ## What an insertion asks -/

/-- A node may enter the content of a branch at a place. -/
structure Insertable (doc : Document) (branch : NodeId) (index : Nat) (id : NodeId) : Prop where
  isBranch : doc.IsBranch branch
  inRange : index ≤ (doc.children branch).length
  accepts : doc.Accepts branch id
  detached : doc.parent? id = none
  not_above : ¬ doc.AncestorOrSelf id branch
  single : ¬ doc.DoublesRoot branch id

theorem apply_insertChild_eq_ok_iff {changed : Document} :
    doc.apply (insertChild branch index id) = (changed, .ok ()) ↔
      index ≤ (doc.children branch).length ∧ doc.checkInsertable branch id = .ok () ∧
        changed = doc.link branch index id := by
  rw [apply_insertChild]
  by_cases hindex : (doc.children branch).length < index
  · simp [hindex, Nat.not_le_of_lt hindex]
  · cases hcheck : doc.checkInsertable branch id with
    | error refusal => simp [hindex]
    | ok _ => simp [hindex, Nat.le_of_not_lt hindex, eq_comm]

theorem apply_done_eq_ok_iff {update : Update Unit} {changed : Document} {outcome : Outcome} :
    doc.apply (update >>= fun _ => pure .done) = (changed, .ok outcome) ↔
      doc.apply update = (changed, .ok ()) ∧ outcome = .done := by
  rw [apply_bind_pure]
  obtain ⟨after, result⟩ := doc.apply update
  cases result with
  | error refusal => simp [Except.map]
  | ok _ => simp [Except.map, eq_comm]

/-- An insertion is made exactly when the node may enter, and then it links the node. -/
theorem WellFormed.edit_insert_eq_ok_iff (wf : doc.WellFormed) {changed : Document}
    {outcome : Outcome} :
    doc.edit branch (.insert index id) = (changed, .ok outcome) ↔
      doc.Insertable branch index id ∧ changed = doc.link branch index id ∧ outcome = .done := by
  by_cases hbranch : doc.IsBranch branch
  · rw [edit_of_isBranch hbranch, editContent, apply_done_eq_ok_iff,
      apply_insertChild_eq_ok_iff, checkInsertable_eq_ok_iff, wf.checkDetached_eq_ok_iff]
    constructor
    · rintro ⟨⟨hindex, ⟨⟨haccepts, hparent, habove⟩, hsingle⟩, rfl⟩, rfl⟩
      exact ⟨⟨hbranch, hindex, haccepts, hparent, habove, hsingle⟩, rfl, rfl⟩
    · rintro ⟨h, rfl, rfl⟩
      exact ⟨⟨h.inRange, ⟨⟨h.accepts, h.detached, h.not_above⟩, h.single⟩, rfl⟩, rfl⟩
  · obtain ⟨refusal, hrefused⟩ := edit_of_not_isBranch hbranch
    rw [hrefused]
    constructor
    · intro h
      cases (Prod.mk.inj h).2
    · rintro ⟨h, _⟩
      exact absurd h.isBranch hbranch

theorem Insertable.mem (h : doc.Insertable branch index id) : id ∈ doc := h.accepts.mem

/-! ## Ancestry over a new link -/

/-- A link leads from its branch to its node; all other links are as they were. -/
theorem Insertable.parent_link_iff (h : doc.Insertable branch index id) :
    (doc.link branch index id).Parent a x ↔ doc.Parent a x ∨ a = branch ∧ x = id := by
  unfold Parent
  rw [parent?_link _ _ _ _ h.mem]
  by_cases heq : x = id
  · rw [if_pos heq, heq, h.detached, Option.some_inj, eq_comm]
    simp
  · rw [if_neg heq]
    simp [heq]

/-- Above a node of a linked document are the nodes that were above it, and if it hangs below
the new link, those above the branch. -/
theorem Insertable.ancestorOrSelf_link_iff (h : doc.Insertable branch index id) :
    (doc.link branch index id).AncestorOrSelf a x ↔
      doc.AncestorOrSelf a x ∨ doc.AncestorOrSelf a branch ∧ doc.AncestorOrSelf id x := by
  have hold : ∀ {a x}, doc.AncestorOrSelf a x → (doc.link branch index id).AncestorOrSelf a x :=
    fun habove => Relation.ReflTransGen.mono
      (fun _ _ hparent => h.parent_link_iff.mpr (.inl hparent)) _ _ habove
  constructor
  · intro habove
    induction habove with
    | refl => exact .inl .refl
    | tail _ hparent ih =>
        rcases h.parent_link_iff.mp hparent with hparent | ⟨rfl, rfl⟩
        · exact ih.imp (·.tail hparent) fun ⟨habove, hbelow⟩ => ⟨habove, hbelow.tail hparent⟩
        · exact .inr ⟨ih.elim id And.left, .refl⟩
  · rintro (habove | ⟨habove, hbelow⟩)
    · exact hold habove
    · exact ((hold habove).tail (h.parent_link_iff.mpr (.inr ⟨rfl, rfl⟩))).trans (hold hbelow)

/-! ## Two insertions -/

/-- After an insertion, another node may enter another branch if it might have done so before,
unless each of the two nodes hangs above the branch of the other. -/
theorem Insertable.insertable_link_iff (h : doc.Insertable branch index id)
    (hbranch : branch ≠ branch') (hid : id ≠ id') :
    (doc.link branch index id).Insertable branch' index' id' ↔
      doc.Insertable branch' index' id' ∧
        ¬ (doc.AncestorOrSelf id' branch ∧ doc.AncestorOrSelf id branch') := by
  have hchildren : (doc.link branch index id).children branch' = doc.children branch' := by
    rw [children_link _ _ _ _ h.isBranch.mem, if_neg hbranch.symm]
  have hparent : (doc.link branch index id).parent? id' = doc.parent? id' := by
    rw [parent?_link _ _ _ _ h.mem, if_neg hid.symm]
  have hisBranch : (doc.link branch index id).IsBranch branch' ↔ doc.IsBranch branch' := by
    simp [IsBranch]
  have haccepts : (doc.link branch index id).Accepts branch' id' ↔ doc.Accepts branch' id' := by
    simp [Accepts]
  have hsingle : (doc.link branch index id).DoublesRoot branch' id' ↔
      doc.DoublesRoot branch' id' := by
    simp [DoublesRoot, elementCount, hchildren]
  have habove := h.ancestorOrSelf_link_iff (a := id') (x := branch')
  constructor
  · intro h'
    obtain ⟨hnot, hcross⟩ := not_or.mp (habove.not.mp h'.not_above)
    exact ⟨⟨hisBranch.mp h'.isBranch, hchildren ▸ h'.inRange, haccepts.mp h'.accepts,
      hparent ▸ h'.detached, hnot, hsingle.not.mp h'.single⟩, hcross⟩
  · rintro ⟨h', hcross⟩
    exact ⟨hisBranch.mpr h'.isBranch, hchildren ▸ h'.inRange, haccepts.mpr h'.accepts,
      hparent ▸ h'.detached, habove.not.mpr (not_or.mpr ⟨h'.not_above, hcross⟩),
      hsingle.not.mpr h'.single⟩

/-- Links of two nodes to two branches write to different places. -/
theorem link_link_comm (hbranch : branch ≠ branch') (hid : id ≠ id') (mem : branch ∈ doc)
    (mem' : branch' ∈ doc) (hmem : id ∈ doc) (hmem' : id' ∈ doc) :
    (doc.link branch index id).link branch' index' id' =
      (doc.link branch' index' id').link branch index id := by
  refine eq_of_views (by simp) (by simp) (fun x => ?_) fun x => ?_
  · rw [parent?_link _ _ _ _ (by simpa using hmem'), parent?_link _ _ _ _ hmem,
      parent?_link _ _ _ _ (by simpa using hmem), parent?_link _ _ _ _ hmem']
    grind
  · rw [children_link (doc.link branch index id) _ _ _ (by simpa using mem'),
      children_link (doc.link branch' index' id') _ _ _ (by simpa using mem)]
    simp only [children_link doc _ _ _ mem, children_link doc _ _ _ mem']
    grind

/-- Two insertions of different nodes into different branches that succeed one after the other
succeed in the other order, too, and lead to the same document. -/
theorem Reachable.insert_insert_comm (reachable : doc.Reachable) (hbranch : branch ≠ branch')
    (hid : id ≠ id') {first both : Document} {outcome outcome' : Outcome}
    (h : doc.edit branch (.insert index id) = (first, .ok outcome))
    (h' : first.edit branch' (.insert index' id') = (both, .ok outcome')) :
    ∃ second, doc.edit branch' (.insert index' id') = (second, .ok outcome') ∧
      second.edit branch (.insert index id) = (both, .ok outcome) := by
  have wf := reachable.wellFormed
  have wf_edit {changed : Document} {outcome : Outcome} {target : NodeId} {change : Edit}
      (hedit : doc.edit target change = (changed, .ok outcome)) : changed.WellFormed := by
    have := wf.perform (.edit target change)
    rwa [perform, hedit] at this
  obtain ⟨hins, rfl, rfl⟩ := wf.edit_insert_eq_ok_iff.mp h
  obtain ⟨hafter, rfl, rfl⟩ := (wf_edit h).edit_insert_eq_ok_iff.mp h'
  obtain ⟨hins', hcross⟩ := (hins.insertable_link_iff hbranch hid).mp hafter
  have hsecond : doc.edit branch' (.insert index' id') =
      (doc.link branch' index' id', .ok .done) :=
    wf.edit_insert_eq_ok_iff.mpr ⟨hins', rfl, rfl⟩
  -- the cycle that the second order would close is the one that the first order did not close
  have hswapped : (doc.link branch' index' id').Insertable branch index id :=
    (hins'.insertable_link_iff hbranch.symm hid.symm).mpr
      ⟨hins, fun hcycle => hcross hcycle.symm⟩
  refine ⟨_, hsecond, (wf_edit hsecond).edit_insert_eq_ok_iff.mpr ⟨hswapped, ?_, rfl⟩⟩
  exact link_link_comm hbranch hid hins.isBranch.mem hins'.isBranch.mem hins.mem hins'.mem

/-- The branch that the second node enters lies in the first node. -/
theorem insert_insert_comm_nested :
    let doc := Document.empty.run [.createElement (.plain "a") [], .edit ⟨1⟩ (.addText "s"),
      .edit ⟨1⟩ (.addElement (.plain "b") []), .createElement (.plain "c") []]
    let first := doc.edit ⟨0⟩ (.insert 0 ⟨1⟩)
    let both := first.1.edit ⟨3⟩ (.insert 0 ⟨4⟩)
    (⟨0⟩ : NodeId) ≠ ⟨3⟩ ∧ (⟨1⟩ : NodeId) ≠ ⟨4⟩ ∧ first.2 = .ok .done ∧ both.2 = .ok .done ∧
      ∃ second, doc.edit ⟨3⟩ (.insert 0 ⟨4⟩) = (second, .ok .done) ∧
        second.edit ⟨0⟩ (.insert 0 ⟨1⟩) = (both.1, .ok .done) := by
  intro doc first both
  have reachable : doc.Reachable := ⟨_, rfl⟩
  have hbranch : (⟨0⟩ : NodeId) ≠ ⟨3⟩ := by decide
  have hid : (⟨1⟩ : NodeId) ≠ ⟨4⟩ := by decide
  have hfirst : first.2 = .ok .done := by decide
  have hboth : both.2 = .ok .done := by decide
  exact ⟨hbranch, hid, hfirst, hboth,
    reachable.insert_insert_comm hbranch hid (Prod.ext rfl hfirst) (Prod.ext rfl hboth)⟩

end XPathTree.Document
