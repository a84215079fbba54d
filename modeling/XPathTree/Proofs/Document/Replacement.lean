import XPathTree.Proofs.Document.Insertion
import XPathTree.Proofs.Document.Update

/-!
# Whole contents

Clearing a branch, retaining some of its children and replacing its content are
`relink` too. For a replacement `checkContent` establishes that the new content is
admissible, one node after the other: the nodes checked so far are admissible and
remain so with the next one (`admissible_of_checkContent`). Nothing more is asked, so that
an admissible content is not refused (`Admissible.apply_setContent`).

`retainAsking` is described by `answers`, what the question about each child was
answered given the children asked about before it.
-/

namespace XPathTree.Document

variable {doc : Document} {branch id : NodeId} {content : List NodeId}

/-! ## Replacing the content -/

theorem checkEntry_eq_ok_iff {earlier : List NodeId} :
    doc.checkEntry branch earlier id = .ok () ↔
      id ∈ doc ∧ id ∉ earlier ∧
        (doc.parent? id = some branch ∨ doc.checkDetached branch id = .ok ()) := by
  rw [checkEntry_eq]
  by_cases hid : id ∈ doc
  · by_cases hearlier : id ∈ earlier
    · simp [hid, hearlier]
    · by_cases hparent : doc.parent? id = some branch
      · simp [hid, hearlier, hparent]
      · simp [hid, hearlier, hparent]
  · simp [hid]

/-- The content has more than one element where the document node takes one. -/
def ExceedsRoot (doc : Document) (branch : NodeId) (content : List NodeId) : Prop :=
  doc.nodeType? branch = some .document ∧ 1 < doc.elementCount content

instance : Decidable (doc.ExceedsRoot branch content) :=
  inferInstanceAs (Decidable (_ ∧ _))

theorem checkContent_cons (earlier rest : List NodeId) :
    doc.checkContent branch earlier (id :: rest) = (do
      doc.checkEntry branch earlier id
      if doc.ExceedsRoot branch (id :: earlier) then .error .duplicateRootElement
      else doc.checkContent branch (id :: earlier) rest) :=
  rfl

theorem checkContent_cons_eq_ok_iff {earlier rest : List NodeId} :
    doc.checkContent branch earlier (id :: rest) = .ok () ↔
      doc.checkEntry branch earlier id = .ok () ∧ ¬ doc.ExceedsRoot branch (id :: earlier) ∧
        doc.checkContent branch (id :: earlier) rest = .ok () := by
  rw [checkContent_cons]
  cases doc.checkEntry branch earlier id with
  | error refusal => simp [bind, Except.bind]
  | ok _ => by_cases h : doc.ExceedsRoot branch (id :: earlier) <;> simp [h, bind, Except.bind]

theorem WellFormed.admissible_of_checkContent (wf : doc.WellFormed)
    {earlier rest : List NodeId} (ad : doc.Admissible branch earlier)
    (h : doc.checkContent branch earlier rest = .ok ()) :
    doc.Admissible branch (rest.reverse ++ earlier) := by
  induction rest generalizing earlier with
  | nil => exact ad
  | cons id rest ih =>
      obtain ⟨hentry, hroot, hrest⟩ := checkContent_cons_eq_ok_iff.mp h
      obtain ⟨hmem, hearlier, hfree⟩ := checkEntry_eq_ok_iff.mp hentry
      rw [List.reverse_cons, List.append_assoc]
      refine ih (wf.admissible_cons ad hearlier hmem hfree fun heq => ?_) hrest
      subst heq
      have hdocument := (wf.document_iff root).mpr rfl
      exact Nat.le_of_not_lt fun hlt => hroot ⟨hdocument, hlt⟩

theorem WellFormed.admissible_of_checkContent_nil (wf : doc.WellFormed)
    (hbranch : doc.IsBranch branch) (h : doc.checkContent branch [] content = .ok ()) :
    doc.Admissible branch content := by
  have hnil := wf.admissible_of_sublist hbranch (List.nil_sublist _)
  have ad := wf.admissible_of_checkContent hnil h
  rw [List.append_nil] at ad
  exact ad.perm content.reverse_perm.symm

theorem checkContent_append (earlier first rest : List NodeId) :
    doc.checkContent branch earlier (first ++ rest) = (do
      doc.checkContent branch earlier first
      doc.checkContent branch (first.reverse ++ earlier) rest) := by
  induction first generalizing earlier with
  | nil => rfl
  | cons id first ih =>
      rw [List.cons_append, checkContent_cons, checkContent_cons, ih, List.reverse_cons,
        List.append_assoc, List.singleton_append]
      cases doc.checkEntry branch earlier id with
      | error refusal => rfl
      | ok _ => by_cases h : doc.ExceedsRoot branch (id :: earlier) <;> simp [h, bind, Except.bind]

/-- What is admissible passes the checks, whatever part of it has been checked before. -/
theorem Admissible.checkContent_behind {earlier rest : List NodeId}
    (ad : doc.Admissible branch (rest.reverse ++ earlier)) (wf : doc.WellFormed) :
    doc.checkContent branch earlier rest = .ok () := by
  induction rest generalizing earlier with
  | nil => rfl
  | cons id rest ih =>
      rw [List.reverse_cons, List.append_assoc, List.singleton_append] at ad
      have hid : id ∈ rest.reverse ++ id :: earlier :=
        List.mem_append_right _ List.mem_cons_self
      have hnodup : (id :: earlier).Nodup := ad.nodup.sublist (List.sublist_append_right _ _)
      have hfree : doc.parent? id = some branch ∨ doc.checkDetached branch id = .ok () :=
        (ad.free id hid).imp_right fun ⟨hparent, habove, haccepts⟩ =>
          wf.checkDetached_eq_ok_iff.mpr ⟨haccepts, hparent, habove⟩
      refine checkContent_cons_eq_ok_iff.mpr
        ⟨checkEntry_eq_ok_iff.mpr ⟨ad.mem id hid, (List.nodup_cons.mp hnodup).1, hfree⟩, ?_, ih ad⟩
      rintro ⟨hdocument, hlt⟩
      have hle := ad.elements ((wf.document_iff branch).mp hdocument)
      have hpart : doc.elementCount (id :: earlier) ≤
          doc.elementCount (rest.reverse ++ id :: earlier) :=
        (List.sublist_append_right _ _).countP_le
      omega

theorem Admissible.checkContent_eq_ok (ad : doc.Admissible branch content) (wf : doc.WellFormed) :
    doc.checkContent branch [] content = .ok () := by
  refine Admissible.checkContent_behind (ad.perm ?_) wf
  rw [List.append_nil]
  exact content.reverse_perm

/-- An admissible content replaces the one before it. -/
theorem Admissible.apply_setContent (ad : doc.Admissible branch content) (wf : doc.WellFormed) :
    doc.apply (setContent branch content) = (doc.relink branch content, .ok ()) := by
  rw [Document.apply_setContent, ad.checkContent_eq_ok wf]

/-! ## Replacing the processing instructions -/

theorem checkInstructions_eq_ok_iff {given : List NodeId} :
    doc.checkInstructions given = .ok () ↔
      ∀ id ∈ given, doc.nodeType? id = some .instruction := by
  induction given with
  | nil => simp [checkInstructions]
  | cons id rest ih =>
      unfold checkInstructions
      cases h : doc.nodeType? id with
      | none => simp [h]
      | some found => cases found <;> simp [h, ih]

/-! ## Keeping some children -/

/-- Asks about one node and remembers it. -/
def asking (keep : List NodeId → NodeId → Bool) (node : NodeId) : StateM (List NodeId) Bool := do
  let asked ← get
  set (asked ++ [node])
  pure (keep asked node)

/-- The nodes with the answers about them, given those asked about before. -/
def answers (keep : List NodeId → NodeId → Bool) :
    (asked ids : List NodeId) → List (NodeId × Bool)
  | _, [] => []
  | asked, id :: rest => (id, keep asked id) :: answers keep (asked ++ [id]) rest

theorem map_fst_answers (keep : List NodeId → NodeId → Bool) (asked ids : List NodeId) :
    (answers keep asked ids).map (·.1) = ids := by
  induction ids generalizing asked with
  | nil => rfl
  | cons id rest ih => exact congrArg (id :: ·) (ih (asked ++ [id]))

/-- The nodes that may stay. -/
def survivors (keep : List NodeId → NodeId → Bool) (ids : List NodeId) : List NodeId :=
  ((answers keep [] ids).filter (·.2)).map (·.1)

/-- The nodes that may stay, behind others that were asked about. -/
def survivorsBehind (keep : List NodeId → NodeId → Bool) (asked ids : List NodeId) :
    List NodeId :=
  ((answers keep asked ids).filter (·.2)).map (·.1)

theorem survivorsBehind_sublist (keep : List NodeId → NodeId → Bool) (asked ids : List NodeId) :
    (survivorsBehind keep asked ids).Sublist ids := by
  have h := (List.filter_sublist (l := answers keep asked ids) (p := (·.2))).map (·.1)
  rwa [map_fst_answers] at h

theorem survivors_sublist (keep : List NodeId → NodeId → Bool) (ids : List NodeId) :
    (survivors keep ids).Sublist ids :=
  survivorsBehind_sublist keep [] ids

theorem mapM_asking (keep : List NodeId → NodeId → Bool) (ids asked : List NodeId) :
    (ids.mapM fun node => do
      let stays ← asking keep node
      pure (node, stays)).run asked = (answers keep asked ids, asked ++ ids) := by
  induction ids generalizing asked with
  | nil =>
      rw [List.append_nil]
      rfl
  | cons id rest ih =>
      -- the first question is asked in state `asked`, the rest with `id` behind it
      rw [List.mapM_cons]
      show (let result := (rest.mapM fun node => do
              let stays ← asking keep node
              pure (node, stays)).run (asked ++ [id])
            ((id, keep asked id) :: result.1, result.2)) = _
      rw [ih]
      simp [answers]

/-- A node that is asked about once either stays or goes. -/
theorem mem_dropped_iff {asked : List (NodeId × Bool)} (nodup : (asked.map (·.1)).Nodup)
    (id : NodeId) :
    id ∈ (asked.filter (!·.2)).map (·.1) ↔
      id ∈ asked.map (·.1) ∧ id ∉ (asked.filter (·.2)).map (·.1) := by
  constructor
  · intro h
    obtain ⟨⟨x, stays⟩, hx, rfl⟩ := List.mem_map.mp h
    obtain ⟨hmem, hgoes⟩ := List.mem_filter.mp hx
    refine ⟨List.mem_map_of_mem hmem, fun hkept => ?_⟩
    obtain ⟨⟨y, stays'⟩, hy, rfl⟩ := List.mem_map.mp hkept
    obtain ⟨hmem', hstays⟩ := List.mem_filter.mp hy
    have heq := List.inj_on_of_nodup_map nodup hmem hmem' rfl
    rw [(Prod.mk.inj heq).2] at hgoes
    simp_all
  · rintro ⟨hmem, hkept⟩
    obtain ⟨⟨x, stays⟩, hx, rfl⟩ := List.mem_map.mp hmem
    cases stays with
    | false => exact List.mem_map_of_mem (List.mem_filter.mpr ⟨hx, rfl⟩)
    | true => exact absurd (List.mem_map_of_mem (List.mem_filter.mpr ⟨hx, rfl⟩)) hkept

/-- Retaining asks about each child once, in order, and leaves the survivors. -/
theorem WellFormed.retainAsking_eq (wf : doc.WellFormed) (hbranch : branch ∈ doc)
    (keep : List NodeId → NodeId → Bool) :
    doc.retainAsking branch keep =
      (doc.relink branch (survivors keep (doc.children branch)), doc.children branch) := by
  let dropped := ((answers keep [] (doc.children branch)).filter (!·.2)).map (·.1)
  -- asking comes to the end of the list whatever the answers, and only then links change
  have hrun : doc.retainAsking branch keep =
      ((doc.setParents none dropped).setChildren branch (survivors keep (doc.children branch)),
        doc.children branch) := by
    show (let result := ((doc.children branch).mapM fun node => do
            let stays ← asking keep node
            pure (node, stays)).run []
          ((doc.setParents none ((result.1.filter (!·.2)).map (·.1))).setChildren branch
            ((result.1.filter (·.2)).map (·.1)), result.2)) = _
    rw [mapM_asking]
    rfl
  have hdropped : ∀ x, x ∈ dropped ↔ x ∈ doc.children branch ∧
      x ∉ survivors keep (doc.children branch) := by
    intro x
    have nodup : ((answers keep [] (doc.children branch)).map (·.1)).Nodup := by
      rw [map_fst_answers]
      exact wf.children_nodup branch
    have h := mem_dropped_iff nodup x
    rwa [map_fst_answers] at h
  have hkept := (survivors_sublist keep (doc.children branch)).subset
  rw [hrun]
  refine congrArg (·, doc.children branch) ?_
  refine eq_of_views (by simp) (by simp) (fun x => ?_) fun x => ?_
  · rw [wf.parent?_relink fun x hx => wf.children_mem branch x (hkept hx), parent?_setChildren,
      parent?_setParents none fun x hx => wf.children_mem branch x ((hdropped x).mp hx).1]
    simp only [hdropped]
    by_cases hx : x ∈ survivors keep (doc.children branch)
    · rw [if_neg fun h => h.2 hx, if_pos hx]
      exact wf.children_parent branch x (hkept hx)
    · simp only [hx, not_false_eq_true, and_true, if_false]
  · rw [children_relink _ _ _ hbranch, children_setChildren _ _ _ _ (by simpa using hbranch)]
    simp

end XPathTree.Document
