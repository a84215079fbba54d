import XPathTree.Proofs.Document.Attribute

/-!
# Replacing a content step by step

`setContent` looks at the whole list before it changes anything. Clearing the branch
and pushing the nodes one by one looks at each node in the tree as it is by then.
The two agree, refusals included, as long as the list holds no attribute of the branch.

The simulation runs over the list. When the nodes `pushed` have gone in, the stepwise
document is `doc.relink branch pushed`; `checkDetached_relink` says that a check in
that document is the check of `setContent` in `doc`, given that `pushed` came before.
What makes it so: the former children are free by then but would be let in again, and
the ancestors of the branch are the same in both documents.
-/

namespace XPathTree.Document

/-- Pushes nodes one by one; the first refusal ends it. -/
def pushEach (doc : Document) (branch : NodeId) : List NodeId → Except TreeError Document
  | [] => .ok doc
  | node :: rest =>
    match doc.edit branch (.push node) with
    | (changed, .ok _) => changed.pushEach branch rest
    | (_, .error refusal) => .error refusal

/-- Clears a branch and pushes nodes one by one; the first refusal ends it. -/
def clearPush (doc : Document) (branch : NodeId) (content : List NodeId) :
    Except TreeError Document :=
  match doc.edit branch .clear with
  | (cleared, .ok _) => cleared.pushEach branch content
  | (_, .error refusal) => .error refusal

/-- The document after a change that is made completely or not at all. -/
def settle (doc : Document) (result : Except TreeError Document) :
    Document × Except TreeError Outcome :=
  match result with
  | .ok changed => (changed, .ok .done)
  | .error refusal => (doc, .error refusal)

variable {doc : Document} {branch id : NodeId} {pushed content : List NodeId}

/-! ## Old and new links -/

/-- The walk to the root reads only the parents of the nodes it passes. -/
theorem climb_congr {doc' : Document} {bound : Nat}
    (h : ∀ a, doc.AncestorOrSelf a id → doc'.parent? a = doc.parent? a) :
    doc'.climb bound id = doc.climb bound id := by
  induction bound generalizing id with
  | zero => rfl
  | succ bound ih =>
      have hself := h id .refl
      cases hp : doc.parent? id with
      | none =>
          rw [hp] at hself
          rw [climb_of_none hp, climb_of_none hself]
      | some parent =>
          rw [hp] at hself
          rw [climb_of_parent hp, climb_of_parent hself]
          exact congrArg (parent :: ·) (ih fun a ha => h a (ha.tail hp))

/-- A new content changes no link on the way from the branch to its root. -/
theorem Admissible.ancestors_relink (ad : doc.Admissible branch pushed) (wf : doc.WellFormed) :
    (doc.relink branch pushed).ancestors branch = doc.ancestors branch := by
  unfold ancestors
  rw [size_relink]
  refine climb_congr fun a ha => ?_
  have hpushed : a ∉ pushed := fun h => ad.not_above wf h ha
  have hchild : a ∉ doc.children branch := fun h =>
    wf.acyclic branch (.head' (wf.children_parent branch a h) ha)
  rw [wf.parent?_relink ad.mem, if_neg hpushed, if_neg hchild]

/-- Of two contents in a row the second counts, if it holds those nodes of the first that were
not among the former children. -/
theorem Admissible.relink_relink (ad : doc.Admissible branch pushed) (wf : doc.WellFormed)
    (known : ∀ id ∈ content, id ∈ doc) (h : pushed ⊆ content ++ doc.children branch) :
    (doc.relink branch pushed).relink branch content = doc.relink branch content := by
  have hbranch := ad.isBranch.mem
  have hknown : ∀ id ∈ content, id ∈ doc.relink branch pushed := by simpa using known
  refine eq_of_views (by simp) (by simp) (fun x => ?_) fun x => ?_
  · rw [(ad.wellFormed wf).parent?_relink hknown, wf.parent?_relink known,
      children_relink _ _ _ hbranch, if_pos rfl, wf.parent?_relink ad.mem]
    by_cases hx : x ∈ content
    · rw [if_pos hx, if_pos hx]
    · rw [if_neg hx, if_neg hx]
      by_cases hpushed : x ∈ pushed
      · have hformer := (List.mem_append.mp (h hpushed)).resolve_left hx
        rw [if_pos hpushed, if_pos hformer]
      · rw [if_neg hpushed, if_neg hpushed]
  · rw [children_relink _ _ _ (by simpa using hbranch), children_relink _ _ _ hbranch,
      children_relink _ _ _ hbranch]
    split <;> rfl

/-! ## One check -/

theorem checkType_eq_ok_iff {branchType : Option NodeType} {found : NodeType} :
    checkType branchType found = .ok () ↔
      found ≠ .document ∧ found ≠ .attribute ∧
        (found = .text → branchType = some .element) := by
  cases found <;> simp [checkType]

/-- A node that has the branch as its parent, other than an attribute, is let in again. -/
theorem AttributesListed.accepts_of_parent (listed : doc.AttributesListed) (wf : doc.WellFormed)
    (own : id ∉ doc.attributes branch) (h : doc.parent? id = some branch) :
    doc.Accepts branch id := by
  have hattribute : doc.nodeType? id ≠ some .attribute :=
    fun htype => own (listed.parent id branch htype h)
  have hchild := wf.parent_children id branch h hattribute
  have hdocument : doc.nodeType? id ≠ some .document := by
    intro htype
    rw [(wf.document_iff id).mp htype] at hchild
    exact wf.root_not_mem_children hchild
  obtain ⟨found, hfound⟩ := Option.ne_none_iff_exists'.mp fun hnone =>
    nodeType?_eq_none_iff.mp hnone (wf.children_mem branch id hchild)
  rw [hfound] at hattribute hdocument
  refine ⟨found, hfound, checkType_eq_ok_iff.mpr ⟨?_, ?_, fun htext => ?_⟩⟩
  · exact fun h => hdocument (congrArg some h)
  · exact fun h => hattribute (congrArg some h)
  · -- the document node has no text among its children
    refine (wf.parent_branch id branch h).resolve_left fun hbranch => ?_
    rw [(wf.document_iff branch).mp hbranch] at hchild
    exact wf.root_text id hchild (htext ▸ hfound)

theorem Admissible.accepts (ad : doc.Admissible branch pushed) (wf : doc.WellFormed)
    (listed : doc.AttributesListed) (own : ∀ id ∈ doc.attributes branch, id ∉ pushed)
    (h : id ∈ pushed) : doc.Accepts branch id := by
  rcases ad.free id h with hparent | ⟨_, _, haccepts⟩
  · exact listed.accepts_of_parent wf (fun hown => own id hown h) hparent
  · exact haccepts

/-- What a push checks about a node, other than the rule of the single root element, is
what `setContent` checks about it after the nodes that were pushed before. -/
theorem Admissible.checkDetached_relink (ad : doc.Admissible branch pushed)
    (wf : doc.WellFormed) (listed : doc.AttributesListed)
    (own : ∀ x ∈ doc.attributes branch, x ∉ id :: pushed) :
    (doc.relink branch pushed).checkDetached branch id =
      doc.checkEntry branch pushed.reverse id := by
  have hnew : ∀ own ∈ doc.attributes branch, own ∉ pushed :=
    fun x hx hmem => own x hx (List.mem_cons_of_mem _ hmem)
  have hparent : (doc.relink branch pushed).parent? id = _ := wf.parent?_relink ad.mem id
  -- the test for cycles climbs from the branch, where no link has changed
  have habove : (doc.relink branch pushed).isAncestorOrSelf id branch =
      doc.isAncestorOrSelf id branch := by
    unfold isAncestorOrSelf
    rw [ad.ancestors_relink wf]
  rw [checkEntry_eq]
  simp only [List.mem_reverse]
  by_cases hid : id ∈ doc
  · rw [if_neg (not_not_intro hid)]
    by_cases hpushed : id ∈ pushed
    · -- a node that was pushed before is a child by now
      obtain ⟨found, hfound, htype⟩ := ad.accepts wf listed hnew hpushed
      rw [if_pos hpushed] at hparent ⊢
      unfold checkDetached
      rw [nodeType?_relink, nodeType?_relink, hfound, hparent]
      simp [htype, bind, Except.bind]
    · rw [if_neg hpushed] at hparent ⊢
      by_cases hformer : doc.parent? id = some branch
      · -- a former child was detached, and passes
        have hown : id ∉ doc.attributes branch := fun h => own id h List.mem_cons_self
        have haccepts := listed.accepts_of_parent wf hown hformer
        have hchild := wf.parent_children id branch hformer haccepts.ne_attribute
        obtain ⟨found, hfound, htype⟩ := haccepts
        have hbelow : doc.isAncestorOrSelf id branch = false := by
          refine Bool.eq_false_iff.mpr fun h => ?_
          exact wf.acyclic branch (.head' hformer (wf.isAncestorOrSelf_iff.mp h))
        rw [if_pos hchild] at hparent
        rw [if_pos hformer]
        unfold checkDetached
        rw [nodeType?_relink, nodeType?_relink, hfound, hparent, habove, hbelow]
        simp [htype, bind, Except.bind]
      · -- any other node is untouched
        have hchild : id ∉ doc.children branch :=
          fun h => hformer (wf.children_parent branch id h)
        rw [if_neg hchild] at hparent
        rw [if_neg hformer]
        unfold checkDetached
        rw [nodeType?_relink, nodeType?_relink, hparent, habove]
  · rw [if_pos hid]
    unfold checkDetached
    rw [nodeType?_relink, nodeType?_eq_none_iff.mpr hid]

/-- A node is a second root element after the nodes that were pushed before if and only if
the list up to it has too many elements. -/
theorem Admissible.doublesRoot_relink_iff (ad : doc.Admissible branch pushed)
    (wf : doc.WellFormed) :
    (doc.relink branch pushed).DoublesRoot branch id ↔
      doc.ExceedsRoot branch (id :: pushed.reverse) := by
  unfold DoublesRoot ExceedsRoot
  rw [nodeType?_relink, nodeType?_relink, elementCount_relink,
    children_relink _ _ _ ad.isBranch.mem, if_pos rfl, elementCount_cons,
    elementCount_perm pushed.reverse_perm]
  constructor
  · rintro ⟨helement, hdocument, hpos⟩
    rw [if_pos helement]
    exact ⟨hdocument, by omega⟩
  · rintro ⟨hdocument, hlt⟩
    have hle := ad.elements ((wf.document_iff branch).mp hdocument)
    by_cases helement : doc.nodeType? id = some .element
    · rw [if_pos helement] at hlt
      exact ⟨helement, hdocument, by omega⟩
    · rw [if_neg helement] at hlt
      omega

/-! ## One push -/

/-- What a push checks about a node is what `setContent` checks about it after the nodes that
were pushed before. -/
theorem Admissible.checkInsertable_relink (ad : doc.Admissible branch pushed)
    (wf : doc.WellFormed) (listed : doc.AttributesListed)
    (own : ∀ x ∈ doc.attributes branch, x ∉ id :: pushed) :
    (doc.relink branch pushed).checkInsertable branch id = (do
      doc.checkEntry branch pushed.reverse id
      if doc.ExceedsRoot branch (id :: pushed.reverse) then .error .duplicateRootElement
      else .ok ()) := by
  rw [checkInsertable_eq, ad.checkDetached_relink wf listed own]
  simp only [ad.doublesRoot_relink_iff wf]

/-- A push puts the node behind those that were pushed before. -/
theorem Admissible.linkLast_relink (ad : doc.Admissible branch pushed) (wf : doc.WellFormed)
    (hid : id ∈ doc) :
    (doc.relink branch pushed).linkLast branch id = doc.relink branch (pushed ++ [id]) := by
  have hbranch := ad.isBranch.mem
  have hknown : ∀ x ∈ pushed ++ [id], x ∈ doc :=
    List.forall_mem_append.mpr ⟨ad.mem, List.forall_mem_singleton.mpr hid⟩
  have hsubset : pushed ⊆ (pushed ++ [id]) ++ doc.children branch :=
    fun x hx => List.mem_append_left _ (List.mem_append_left _ hx)
  have hlink := (ad.wellFormed wf).link_eq_relink (by simpa using hbranch)
    (by simpa using hid) (Nat.le_refl _)
  rw [children_relink _ _ _ hbranch, if_pos rfl, List.insertIdx_length_self,
    ad.relink_relink wf hknown hsubset] at hlink
  unfold linkLast
  rw [children_relink _ _ _ hbranch, if_pos rfl, hlink]

/-! ## All pushes -/

theorem pushEach_cons (hbranch : doc.IsBranch branch) (rest : List NodeId) :
    doc.pushEach branch (id :: rest) = (do
      doc.checkInsertable branch id
      (doc.linkLast branch id).pushEach branch rest) := by
  rw [pushEach, edit_of_isBranch hbranch, editContent, apply_bind_pure, apply_pushChild]
  cases doc.checkInsertable branch id with
  | error refusal => rfl
  | ok _ => rfl

/-- The pushes that are still to come do what `setContent` does with the rest of the list. -/
theorem Admissible.pushEach_relink (ad : doc.Admissible branch pushed) (wf : doc.WellFormed)
    (listed : doc.AttributesListed) (own : ∀ x ∈ doc.attributes branch, x ∉ pushed ++ content) :
    (doc.relink branch pushed).pushEach branch content = (do
      doc.checkContent branch pushed.reverse content
      .ok (doc.relink branch (pushed ++ content))) := by
  -- on the nodes to come; those that went in are the state
  induction content generalizing pushed with
  | nil =>
      rw [List.append_nil]
      rfl
  | cons id rest ih =>
      have hown : ∀ x ∈ doc.attributes branch, x ∉ id :: pushed := by
        intro x hx hmem
        refine own x hx ?_
        rcases List.mem_cons.mp hmem with rfl | hmem
        · simp
        · exact List.mem_append_left _ hmem
      rw [pushEach_cons (by simpa using ad.isBranch), ad.checkInsertable_relink wf listed hown,
        checkContent_cons]
      cases hcheck : doc.checkEntry branch pushed.reverse id with
      | error refusal => rfl
      | ok _ =>
          obtain ⟨hid, hearlier, hfree⟩ := checkEntry_eq_ok_iff.mp hcheck
          by_cases hexceeds : doc.ExceedsRoot branch (id :: pushed.reverse)
          · simp only [bind, Except.bind, if_pos hexceeds]
          · have hcount : doc.elementCount (id :: pushed.reverse) = _ :=
              elementCount_perm (pushed.reverse_perm.cons id)
            have hcons : doc.Admissible branch (id :: pushed) := by
              refine wf.admissible_cons ad (by simpa using hearlier) hid hfree fun hroot => ?_
              subst hroot
              have hdocument := (wf.document_iff root).mpr rfl
              exact Nat.le_of_not_lt fun hlt => hexceeds ⟨hdocument, by omega⟩
            have hnext := hcons.perm (List.perm_append_singleton id pushed)
            have hrest := ih hnext (by simpa using own)
            rw [List.reverse_append, List.reverse_singleton, List.append_assoc] at hrest
            simp only [bind, Except.bind, if_neg hexceeds]
            rw [ad.linkLast_relink wf hid]
            exact hrest

/-- Replacing a content is clearing the branch and pushing the nodes one by one, but all
or nothing: the first push that is refused decides the refusal. -/
theorem Reachable.setContent_eq_clearPush (reachable : doc.Reachable)
    (own : ∀ id ∈ doc.attributes branch, id ∉ content) :
    doc.edit branch (.setContent content) = doc.settle (doc.clearPush branch content) := by
  have wf := reachable.wellFormed
  unfold clearPush
  by_cases hbranch : doc.IsBranch branch
  · have hnil := wf.admissible_of_sublist hbranch (List.nil_sublist _)
    have hpushes := hnil.pushEach_relink wf reachable.attributesListed own
    have hcleared : doc.edit branch .clear = (doc.relink branch [], .ok .done) :=
      edit_of_isBranch hbranch .clear
    rw [edit_of_isBranch hbranch, editContent, apply_bind_pure, apply_setContent, hcleared]
    simp only [hpushes]
    show _ = doc.settle (do
      doc.checkContent branch [] content
      .ok (doc.relink branch content))
    cases doc.checkContent branch [] content with
    | error refusal => rfl
    | ok _ => rfl
  · obtain ⟨refusal, hrefused⟩ := edit_of_not_isBranch hbranch
    rw [hrefused, hrefused]
    rfl

/-- An element swaps its children, and refuses to take one of them twice. -/
theorem setContent_eq_clearPush_swap :
    let doc := empty.run [.createElement (.plain "e") [(.plain "a", "v")],
      .edit ⟨1⟩ (.addText "t"), .edit ⟨1⟩ (.addComment "c")]
    doc.Reachable ∧ doc.attributes ⟨1⟩ = [⟨2⟩] ∧ doc.children ⟨1⟩ = [⟨3⟩, ⟨4⟩] ∧
      doc.edit ⟨1⟩ (.setContent [⟨4⟩, ⟨3⟩]) = doc.settle (doc.clearPush ⟨1⟩ [⟨4⟩, ⟨3⟩]) ∧
      doc.edit ⟨1⟩ (.setContent [⟨4⟩, ⟨4⟩]) = doc.settle (doc.clearPush ⟨1⟩ [⟨4⟩, ⟨4⟩]) ∧
      (doc.edit ⟨1⟩ (.setContent [⟨4⟩, ⟨3⟩])).2 = .ok .done ∧
      (doc.edit ⟨1⟩ (.setContent [⟨4⟩, ⟨4⟩])).2 = .error (.alreadyParented ⟨4⟩) := by
  intro doc
  have reachable : doc.Reachable := ⟨_, rfl⟩
  refine ⟨reachable, by decide, by decide, ?_, ?_, rfl, rfl⟩
  · exact reachable.setContent_eq_clearPush (by decide)
  · exact reachable.setContent_eq_clearPush (by decide)

end XPathTree.Document
