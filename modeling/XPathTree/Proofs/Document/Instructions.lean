import Mathlib.Data.List.Induction
import XPathTree.Proofs.Document.Invariant

/-!
# Setting processing instructions

The processing instructions of a branch are replaced by a replacement of its whole content:
the other children, then the instructions that are given. Some of the rules for a content cannot
be broken this way. The other children are the branch's own, a processing instruction has no
children that the branch could be among, and it is no second element below the document node.
What is left is that all nodes given are processing instructions and that none is taken, by a
place earlier in the list or by another parent (`Settable`).

The types are looked at before the rest. Either every check passes, or the list can be cut in
front of the node that is refused (`settable_or_refuses`); the part before the cut is settable by
itself, so that its checks pass (`Settable.checkContent_append`) and the refusal is that of the
node.
-/

namespace XPathTree.Document

variable {doc : Document} {branch id : NodeId} {earlier given : List NodeId} {refusal : TreeError}

/-- The nodes may become the processing instructions of the branch. -/
structure Settable (doc : Document) (branch : NodeId) (given : List NodeId) : Prop where
  instruction : ∀ id ∈ given, doc.nodeType? id = some .instruction
  nodup : given.Nodup
  free : ∀ id ∈ given, doc.parent? id = none ∨ id ∈ doc.children branch

instance : Decidable (doc.Settable branch given) :=
  decidable_of_iff ((∀ id ∈ given, doc.nodeType? id = some .instruction) ∧ given.Nodup ∧
      ∀ id ∈ given, doc.parent? id = none ∨ id ∈ doc.children branch)
    ⟨fun ⟨instruction, nodup, free⟩ => ⟨instruction, nodup, free⟩,
      fun settable => ⟨settable.instruction, settable.nodup, settable.free⟩⟩

/-- The node has a place already: in the list, or as a child of another branch. -/
def Taken (doc : Document) (branch : NodeId) (earlier : List NodeId) (id : NodeId) : Prop :=
  id ∈ earlier ∨ ∃ parent, doc.parent? id = some parent ∧ parent ≠ branch

/-- What a list of nodes is refused for: the type of the first node that is no processing
instruction, or else the first node that is taken. -/
inductive Refuses (doc : Document) (branch : NodeId) (given : List NodeId) : TreeError → Prop
  | type {earlier rest : List NodeId} {id : NodeId} {found : NodeType}
      (hgiven : given = earlier ++ id :: rest)
      (first : ∀ other ∈ earlier, doc.nodeType? other = some .instruction)
      (htype : doc.nodeType? id = some found) (hfound : found ≠ .instruction) :
      Refuses doc branch given (.invalidNodeType .setInstructions found)
  | taken {earlier rest : List NodeId} {id : NodeId} (hgiven : given = earlier ++ id :: rest)
      (instruction : ∀ other ∈ given, doc.nodeType? other = some .instruction)
      (first : doc.Settable branch earlier) (taken : doc.Taken branch earlier id) :
      Refuses doc branch given (.alreadyParented id)

/-- The branch has exchanged its processing instructions, and nothing else has changed. -/
structure Instructed (doc : Document) (branch : NodeId) (given : List NodeId)
    (after : Document) : Prop where
  size : after.size = doc.size
  kind : ∀ id, after.kind? id = doc.kind? id
  children : after.children branch = doc.otherChildren branch ++ given
  children_of_ne : ∀ other, other ≠ branch → after.children other = doc.children other
  parent_given : ∀ id ∈ given, after.parent? id = some branch
  parent_dropped : ∀ id ∈ doc.instructions branch, id ∉ given → after.parent? id = none
  parent_other : ∀ id, id ∉ doc.instructions branch → id ∉ given →
    after.parent? id = doc.parent? id

/-! ## One instruction -/

theorem mem_instructions_iff :
    id ∈ doc.instructions branch ↔
      id ∈ doc.children branch ∧ doc.nodeType? id = some .instruction := by
  unfold instructions
  rw [List.mem_filter, beq_iff_eq]

theorem mem_otherChildren_iff :
    id ∈ doc.otherChildren branch ↔
      id ∈ doc.children branch ∧ doc.nodeType? id ≠ some .instruction := by
  unfold otherChildren
  rw [List.mem_filter, bne_iff_ne]

/-- Nothing is below a processing instruction. -/
theorem WellFormed.instruction_not_above (wf : doc.WellFormed) (hbranch : doc.IsBranch branch)
    (htype : doc.nodeType? id = some .instruction) : ¬ doc.AncestorOrSelf id branch := by
  have hleaf : ¬ doc.IsBranch id := by
    unfold IsBranch
    rw [htype]
    decide
  intro habove
  rcases habove.cases_head with rfl | ⟨child, hchild, _⟩
  · exact hleaf hbranch
  · exact hleaf (wf.parent_branch child id hchild)

/-- A processing instruction that is not taken is free. -/
theorem WellFormed.free_of_not_taken (wf : doc.WellFormed)
    (htype : doc.nodeType? id = some .instruction) (h : ¬ doc.Taken branch earlier id) :
    doc.parent? id = none ∨ id ∈ doc.children branch := by
  cases hparent : doc.parent? id with
  | none => exact .inl rfl
  | some parent =>
      by_cases heq : parent = branch
      · subst heq
        exact .inr (wf.parent_children id parent hparent (by rw [htype]; decide))
      · exact absurd (.inr ⟨parent, hparent, heq⟩) h

theorem Taken.mono {earlier' : List NodeId} (h : doc.Taken branch earlier id)
    (subset : earlier ⊆ earlier') : doc.Taken branch earlier' id :=
  h.imp_left fun hid => subset hid

/-- A processing instruction that is taken has a parent, or will have one. -/
theorem checkEntry_of_taken (htype : doc.nodeType? id = some .instruction)
    (taken : doc.Taken branch earlier id) :
    doc.checkEntry branch earlier id = .error (.alreadyParented id) := by
  rw [checkEntry_eq, if_neg (not_not.mpr (mem_of_nodeType? htype))]
  by_cases hid : id ∈ earlier
  · rw [if_pos hid]
  · obtain ⟨parent, hparent, hne⟩ := taken.resolve_left hid
    rw [if_neg hid, if_neg fun heq => hne (Option.some.inj (hparent.symm.trans heq))]
    unfold checkDetached
    rw [htype, hparent]
    rfl

/-! ## Lists that pass -/

namespace Settable

variable (settable : doc.Settable branch given)
include settable

/-- With a processing instruction that is not taken behind them, nodes remain settable. -/
theorem concat (wf : doc.WellFormed) (htype : doc.nodeType? id = some .instruction)
    (h : ¬ doc.Taken branch given id) : doc.Settable branch (given ++ [id]) where
  instruction := List.forall_mem_append.mpr
    ⟨settable.instruction, List.forall_mem_singleton.mpr htype⟩
  nodup := by
    refine List.nodup_append.mpr ⟨settable.nodup, List.nodup_singleton id, ?_⟩
    rintro other hother _ hid rfl
    exact h (.inl (List.mem_singleton.mp hid ▸ hother))
  free := List.forall_mem_append.mpr
    ⟨settable.free, List.forall_mem_singleton.mpr (wf.free_of_not_taken htype h)⟩

/-- The other children and the new processing instructions may be the content together. -/
theorem admissible (wf : doc.WellFormed) (hbranch : doc.IsBranch branch) :
    doc.Admissible branch (doc.otherChildren branch ++ given) := by
  have others : doc.Admissible branch (doc.otherChildren branch) :=
    wf.admissible_of_sublist hbranch List.filter_sublist
  refine { isBranch := hbranch, mem := ?_, nodup := ?_, free := ?_, elements := fun hroot => ?_ }
  · exact List.forall_mem_append.mpr
      ⟨others.mem, fun id hid => mem_of_nodeType? (settable.instruction id hid)⟩
  · refine List.nodup_append.mpr ⟨others.nodup, settable.nodup, ?_⟩
    rintro id hother _ hid rfl
    exact (mem_otherChildren_iff.mp hother).2 (settable.instruction id hid)
  · refine List.forall_mem_append.mpr ⟨others.free, fun id hid => ?_⟩
    have htype := settable.instruction id hid
    rcases settable.free id hid with hparent | hchild
    · exact .inr ⟨hparent, wf.instruction_not_above hbranch htype, .instruction, htype, rfl⟩
    · exact .inl (wf.children_parent branch id hchild)
  · have hnone : doc.elementCount given = 0 := by
      refine List.countP_eq_zero.mpr fun id hid => ?_
      rw [settable.instruction id hid]
      decide
    have hboth : doc.elementCount (doc.otherChildren branch ++ given) =
        doc.elementCount (doc.otherChildren branch) + doc.elementCount given :=
      List.countP_append
    have hone := others.elements hroot
    omega

/-- Behind nodes that are settable the checks go on. -/
theorem checkContent_append (wf : doc.WellFormed) (hbranch : doc.IsBranch branch)
    (rest : List NodeId) :
    doc.checkContent branch [] (doc.otherChildren branch ++ (given ++ rest)) =
      doc.checkContent branch (doc.otherChildren branch ++ given).reverse rest := by
  have hfirst := (settable.admissible wf hbranch).checkContent_eq_ok wf
  rw [← List.append_assoc, Document.checkContent_append, hfirst, List.append_nil]
  rfl

theorem edit_setInstructions (wf : doc.WellFormed) (hbranch : doc.IsBranch branch) :
    doc.edit branch (.setInstructions given) =
      (doc.relink branch (doc.otherChildren branch ++ given), .ok .done) := by
  have hset := (settable.admissible wf hbranch).apply_setContent wf
  rw [edit_of_isBranch hbranch, editContent, apply_bind_pure, apply_setInstructions,
    checkInstructions_eq_ok_iff.mpr settable.instruction]
  simp only [hset]
  rfl

/-- The new content leaves everything else as it was. -/
theorem instructed (wf : doc.WellFormed) (hbranch : doc.IsBranch branch) :
    doc.Instructed branch given (doc.relink branch (doc.otherChildren branch ++ given)) := by
  have hchildren := children_relink doc branch (doc.otherChildren branch ++ given) hbranch.mem
  have hparent : ∀ id,
      (doc.relink branch (doc.otherChildren branch ++ given)).parent? id = _ :=
    wf.parent?_relink (settable.admissible wf hbranch).mem
  refine
    { size := by simp, kind := by simp, children := ?_, children_of_ne := ?_, parent_given := ?_
      parent_dropped := ?_, parent_other := ?_ }
  · rw [hchildren, if_pos rfl]
  · intro other hne
    rw [hchildren, if_neg hne]
  · intro id hid
    rw [hparent, if_pos (List.mem_append_right _ hid)]
  · intro id hid hgiven
    obtain ⟨hchild, htype⟩ := mem_instructions_iff.mp hid
    have hother : id ∉ doc.otherChildren branch := fun h => (mem_otherChildren_iff.mp h).2 htype
    rw [hparent, if_neg (List.not_mem_append hother hgiven), if_pos hchild]
  · intro id hid hgiven
    rw [hparent]
    by_cases hchild : id ∈ doc.children branch
    · have htype : doc.nodeType? id ≠ some .instruction :=
        fun htype => hid (mem_instructions_iff.mpr ⟨hchild, htype⟩)
      have hother : id ∈ doc.otherChildren branch := mem_otherChildren_iff.mpr ⟨hchild, htype⟩
      rw [if_pos (List.mem_append_left _ hother)]
      exact (wf.children_parent branch id hchild).symm
    · have hother : id ∉ doc.otherChildren branch := fun h => hchild (mem_otherChildren_iff.mp h).1
      rw [if_neg (List.not_mem_append hother hgiven), if_neg hchild]

end Settable

/-! ## Lists that are refused -/

/-- Processing instructions can be set, or one of them is the first that is taken. -/
theorem WellFormed.settable_or_taken (wf : doc.WellFormed)
    (instruction : ∀ id ∈ given, doc.nodeType? id = some .instruction) :
    doc.Settable branch given ∨ ∃ earlier id rest, given = earlier ++ id :: rest ∧
      doc.Settable branch earlier ∧ doc.Taken branch earlier id := by
  -- the list grows at its end: the node there is only looked at if those before it can be set
  induction given using List.reverseRecOn with
  | nil => exact .inl ⟨instruction, List.nodup_nil, List.forall_mem_nil _⟩
  | append_singleton given id ih =>
      obtain ⟨hgiven, hlast⟩ := List.forall_mem_append.mp instruction
      have htype := hlast id (List.mem_singleton_self id)
      rcases ih hgiven with settable | ⟨earlier, first, rest, rfl, settable, taken⟩
      · by_cases h : doc.Taken branch given id
        · exact .inr ⟨given, id, [], rfl, settable, h⟩
        · exact .inl (settable.concat wf htype h)
      · exact .inr ⟨earlier, first, rest ++ [id], by simp, settable, taken⟩

/-- What cannot be set is refused. -/
theorem WellFormed.settable_or_refuses (wf : doc.WellFormed) (known : ∀ id ∈ given, id ∈ doc) :
    doc.Settable branch given ∨ ∃ refusal, doc.Refuses branch given refusal := by
  cases hother : given.find? fun id => doc.nodeType? id != some .instruction with
  | none =>
      have instruction : ∀ id ∈ given, doc.nodeType? id = some .instruction := by
        intro id hid
        simpa using List.find?_eq_none.mp hother id hid
      refine (wf.settable_or_taken instruction).imp_right ?_
      rintro ⟨earlier, id, rest, hgiven, settable, taken⟩
      exact ⟨_, .taken hgiven instruction settable taken⟩
  | some id =>
      obtain ⟨hne, earlier, rest, hgiven, hfirst⟩ := List.find?_eq_some_iff_append.mp hother
      obtain ⟨found, htype⟩ := Option.ne_none_iff_exists'.mp
        (mt nodeType?_eq_none_iff.mp (not_not.mpr (known id (List.mem_of_find?_eq_some hother))))
      refine .inr ⟨_, .type hgiven (fun other hother => ?_) htype ?_⟩
      · simpa using hfirst other hother
      · rintro rfl
        simp [htype] at hne

theorem checkInstructions_append (first : ∀ id ∈ earlier, doc.nodeType? id = some .instruction)
    (rest : List NodeId) :
    doc.checkInstructions (earlier ++ rest) = doc.checkInstructions rest := by
  induction earlier with
  | nil => rfl
  | cons id earlier ih =>
      obtain ⟨htype, hearlier⟩ := List.forall_mem_cons.mp first
      rw [List.cons_append, checkInstructions, htype]
      exact ih hearlier

/-- The refusal is what the first node at fault meets. -/
theorem Refuses.edit_setInstructions (refuses : doc.Refuses branch given refusal)
    (wf : doc.WellFormed) (hbranch : doc.IsBranch branch) :
    doc.edit branch (.setInstructions given) = (doc, .error refusal) := by
  rw [edit_of_isBranch hbranch, editContent, apply_bind_pure, apply_setInstructions]
  cases refuses with
  | @type earlier rest id found hgiven first htype hfound =>
      have hcheck : doc.checkInstructions given =
          .error (.invalidNodeType .setInstructions found) := by
        rw [hgiven, checkInstructions_append first, checkInstructions, htype]
        cases found with
        | instruction => exact absurd rfl hfound
        | _ => rfl
      rw [hcheck]
      rfl
  | @taken earlier rest id hgiven instruction first taken =>
      have htype := instruction id (hgiven ▸ List.mem_append_right _ List.mem_cons_self)
      have hearlier : earlier ⊆ (doc.otherChildren branch ++ earlier).reverse :=
        fun _ h => List.mem_reverse.mpr (List.mem_append_right _ h)
      have hentry := checkEntry_of_taken htype (taken.mono hearlier)
      have hcheck : doc.checkContent branch [] (doc.otherChildren branch ++ given) =
          .error (.alreadyParented id) := by
        rw [hgiven, first.checkContent_append wf hbranch, checkContent_cons, hentry]
        rfl
      rw [checkInstructions_eq_ok_iff.mpr instruction]
      simp only [apply_setContent, hcheck]
      rfl

/-! ## All lists -/

/-- The processing instructions of a branch can be set to nodes of the document exactly when all
are processing instructions, none is listed twice, and each is without a parent or a child of the
branch. They then follow the other children, and those that are not listed again are detached.
Otherwise nothing changes, and the refusal is for the type of the first node that is no processing
instruction or else for the first node that repeats an earlier one or has another parent. -/
theorem Reachable.setInstructions_outcome (reachable : doc.Reachable)
    (hbranch : doc.IsBranch branch) (known : ∀ id ∈ given, id ∈ doc) :
    let result := doc.edit branch (.setInstructions given)
    (result.2 = .ok .done ↔ doc.Settable branch given) ∧
      (doc.Settable branch given → doc.Instructed branch given result.1) ∧
      (¬ doc.Settable branch given → result.1 = doc ∧ ∃ refusal, result.2 = .error refusal) ∧
      ∀ refusal, result.2 = .error refusal ↔ doc.Refuses branch given refusal := by
  intro result
  have wf := reachable.wellFormed
  rcases wf.settable_or_refuses known with settable | ⟨refusal, refuses⟩
  · have hset := settable.edit_setInstructions wf hbranch
    have hresult : result = _ := hset
    rw [hresult]
    refine ⟨iff_of_true rfl settable, fun _ => settable.instructed wf hbranch,
      fun h => absurd settable h, fun refusal => ⟨fun h => ?_, fun refuses => ?_⟩⟩
    · cases h
    · cases (Prod.mk.inj ((refuses.edit_setInstructions wf hbranch).symm.trans hset)).2
  · have hset := refuses.edit_setInstructions wf hbranch
    have hnot : ¬ doc.Settable branch given := by
      intro settable
      cases (Prod.mk.inj (hset.symm.trans (settable.edit_setInstructions wf hbranch))).2
    have hresult : result = _ := hset
    rw [hresult]
    refine ⟨⟨fun h => ?_, fun h => absurd h hnot⟩, fun h => absurd h hnot,
      fun _ => ⟨rfl, refusal, rfl⟩, fun other => ⟨fun h => ?_, fun other_refuses => ?_⟩⟩
    · cases h
    · cases h
      exact refuses
    · cases (Prod.mk.inj (hset.symm.trans (other_refuses.edit_setInstructions wf hbranch))).2
      rfl

/-- Of two processing instructions of an element the second is dropped, and the first comes behind
one that was without a parent. A text that is listed is refused before a repetition in front of
it. -/
theorem setInstructions_outcome_overlap :
    let doc := empty.run [.createElement (.plain "e") [], .edit ⟨1⟩ (.addInstruction "a" ⟨""⟩),
      .edit ⟨1⟩ (.addText "t"), .edit ⟨1⟩ (.addInstruction "b" ⟨""⟩), .createInstruction "c" ⟨""⟩]
    let set := fun given => doc.edit ⟨1⟩ (.setInstructions given)
    doc.Reachable ∧ doc.IsBranch ⟨1⟩ ∧ doc.children ⟨1⟩ = [⟨2⟩, ⟨3⟩, ⟨4⟩] ∧
      (∀ id ∈ [(⟨5⟩ : NodeId), ⟨2⟩], id ∈ doc) ∧ (set [⟨5⟩, ⟨2⟩]).2 = .ok .done ∧
      (set [⟨5⟩, ⟨2⟩]).1.children ⟨1⟩ = [⟨3⟩, ⟨5⟩, ⟨2⟩] ∧ (set [⟨5⟩, ⟨2⟩]).1.parent? ⟨4⟩ = none ∧
      set [⟨5⟩, ⟨2⟩, ⟨5⟩] = (doc, .error (.alreadyParented ⟨5⟩)) ∧
      set [⟨5⟩, ⟨5⟩, ⟨3⟩] = (doc, .error (.invalidNodeType .setInstructions .text)) := by
  intro doc set
  have reachable : doc.Reachable := ⟨_, rfl⟩
  have hbranch : doc.IsBranch ⟨1⟩ := by decide
  have known : ∀ id ∈ [(⟨5⟩ : NodeId), ⟨2⟩], id ∈ doc := by decide
  have settable : doc.Settable ⟨1⟩ [⟨5⟩, ⟨2⟩] := by decide
  obtain ⟨hdone, hinstructed, _⟩ := reachable.setInstructions_outcome hbranch known
  have instructed := hinstructed settable
  refine ⟨reachable, hbranch, by decide, known, hdone.mpr settable, ?_, ?_, ?_, ?_⟩
  · rw [instructed.children]
    decide
  · exact instructed.parent_dropped ⟨4⟩ (by decide) (by decide)
  · have hknown : ∀ id ∈ [(⟨5⟩ : NodeId), ⟨2⟩] ++ ⟨5⟩ :: [], id ∈ doc := by decide
    obtain ⟨_, _, hrefused, hrefusal⟩ := reachable.setInstructions_outcome hbranch hknown
    refine Prod.ext (hrefused (by decide)).1 ((hrefusal _).mpr ?_)
    exact .taken rfl (by decide) settable (.inl (by decide))
  · have hknown : ∀ id ∈ [(⟨5⟩ : NodeId), ⟨5⟩] ++ ⟨3⟩ :: [], id ∈ doc := by decide
    obtain ⟨_, _, hrefused, hrefusal⟩ := reachable.setInstructions_outcome hbranch hknown
    refine Prod.ext (hrefused (by decide)).1 ((hrefusal _).mpr ?_)
    exact .type rfl (by decide) (by decide) (by decide)

end XPathTree.Document
