import XPathTree.Proofs.Document.Ancestry

/-!
# A new content keeps a document well-formed

`Admissible` collects what a list must satisfy to become the content of a branch:
its handles are distinct, each is already under the branch or a detached node that
the branch takes and that is not above it, and the document node gets one element
at most. `Admissible.wellFormed` is the one preservation proof that all edits share.

Acyclicity is the global part. Nodes moved below the branch get a larger rank by the
depth of the branch plus one; the branch itself is not below any of them
(`Admissible.not_above`), so its own rank stays and ranks still grow downwards.
-/

namespace XPathTree.Document

/-- The branch takes nodes of the type of this one. -/
def Accepts (doc : Document) (branch id : NodeId) : Prop :=
  ∃ found, doc.nodeType? id = some found ∧ checkType (doc.nodeType? branch) found = .ok ()

/-- The list may become the content of the branch. -/
structure Admissible (doc : Document) (branch : NodeId) (content : List NodeId) : Prop where
  isBranch : doc.IsBranch branch
  mem : ∀ id ∈ content, id ∈ doc
  nodup : content.Nodup
  free : ∀ id ∈ content, doc.parent? id = some branch ∨
    doc.parent? id = none ∧ ¬ doc.AncestorOrSelf id branch ∧ doc.Accepts branch id
  elements : branch = root → doc.elementCount content ≤ 1

section Accepts

variable {doc : Document} {branch id : NodeId}

theorem Accepts.ne_document (h : doc.Accepts branch id) :
    doc.nodeType? id ≠ some .document := by
  obtain ⟨found, hfound, hcheck⟩ := h
  rw [hfound]
  rintro ⟨⟩
  cases hcheck

theorem Accepts.ne_attribute (h : doc.Accepts branch id) :
    doc.nodeType? id ≠ some .attribute := by
  obtain ⟨found, hfound, hcheck⟩ := h
  rw [hfound]
  rintro ⟨⟩
  cases hcheck

theorem Accepts.ne_text (h : doc.Accepts branch id)
    (hbranch : doc.nodeType? branch = some .document) : doc.nodeType? id ≠ some .text := by
  obtain ⟨found, hfound, hcheck⟩ := h
  rw [hfound]
  rintro ⟨⟩
  rw [hbranch] at hcheck
  cases hcheck

end Accepts

section Relink

variable (doc : Document) (branch : NodeId) (content : List NodeId)

@[simp] theorem isBranch_relink {id : NodeId} :
    (doc.relink branch content).IsBranch id ↔ doc.IsBranch id := by
  simp [IsBranch]

@[simp] theorem elementCount_relink (ids : List NodeId) :
    (doc.relink branch content).elementCount ids = doc.elementCount ids := by
  simp [elementCount]

end Relink

variable {doc : Document} {branch id : NodeId} {content : List NodeId}

theorem WellFormed.parent?_relink (wf : doc.WellFormed) (known : ∀ id ∈ content, id ∈ doc)
    (id : NodeId) :
    (doc.relink branch content).parent? id =
      if id ∈ content then some branch
      else if id ∈ doc.children branch then none
      else doc.parent? id :=
  Document.parent?_relink doc branch content (wf.children_mem branch) known id

/-- The document node is in no child list. -/
theorem WellFormed.root_not_mem_children (wf : doc.WellFormed) : root ∉ doc.children branch := by
  intro h
  have hparent := wf.children_parent branch root h
  rw [wf.root_parent] at hparent
  cases hparent

namespace Admissible

variable (ad : doc.Admissible branch content)
include ad

/-- A node of the content that another branch has as a child would not be free. -/
theorem parent_of_mem (h : id ∈ content) {parent : NodeId}
    (hparent : doc.parent? id = some parent) : parent = branch := by
  rcases ad.free id h with heq | ⟨hnone, _⟩
  · rw [heq] at hparent
    exact (Option.some.inj hparent).symm
  · rw [hnone] at hparent
    cases hparent

variable (wf : doc.WellFormed)
include wf

/-- No node of an admissible content is the branch or above it. -/
theorem not_above (h : id ∈ content) : ¬ doc.AncestorOrSelf id branch := by
  rcases ad.free id h with hparent | ⟨_, hnot, _⟩
  · intro habove
    exact wf.acyclic branch (Relation.TransGen.head' hparent habove)
  · exact hnot

theorem root_not_mem : root ∉ content := by
  intro h
  rcases ad.free root h with hparent | ⟨_, _, haccepts⟩
  · rw [wf.root_parent] at hparent
    cases hparent
  · exact haccepts.ne_document ((wf.document_iff root).mpr rfl)

/-- Ranks grow from parents to children after the change too. -/
theorem acyclic_relink (id : NodeId) : ¬ (doc.relink branch content).Ancestor id id := by
  classical
  let below (id : NodeId) : Prop := ∃ top ∈ content, doc.AncestorOrSelf top id
  let rank (id : NodeId) : Nat :=
    (doc.ancestors id).length + if below id then (doc.ancestors branch).length + 1 else 0
  refine acyclic_of_rank rank (fun parent child h => ?_) id
  rw [wf.parent?_relink ad.mem] at h
  by_cases hcontent : child ∈ content
  · -- a link to the branch, which is below no node of the content
    rw [if_pos hcontent] at h
    obtain rfl := Option.some.inj h
    have hchild : below child := ⟨child, hcontent, .refl⟩
    have hbranch : ¬ below branch := fun ⟨top, htop, habove⟩ => ad.not_above wf htop habove
    simp only [rank, if_pos hchild, if_neg hbranch]
    omega
  · -- a link that was there before: the child is below the content if its parent is
    rw [if_neg hcontent] at h
    split at h
    · cases h
    · have hlength := congrArg List.length (wf.ancestors_of_parent h)
      rw [List.length_cons] at hlength
      have hbelow : below parent → below child :=
        fun ⟨top, htop, habove⟩ => ⟨top, htop, habove.tail h⟩
      by_cases hparent : below parent
      · simp only [rank, if_pos hparent, if_pos (hbelow hparent)]
        omega
      · simp only [rank, if_neg hparent]
        omega

/-- An admissible content keeps a document well-formed. -/
theorem wellFormed : (doc.relink branch content).WellFormed := by
  have hbranch : branch ∈ doc := ad.isBranch.mem
  -- a node is linked to the branch, detached from it, or left alone: `split` on `hparent`
  have hparent : ∀ id, (doc.relink branch content).parent? id = _ := wf.parent?_relink ad.mem
  have hchildren := children_relink doc branch content hbranch
  refine
    { parent_mem := ?_, children_mem := ?_, attributes_mem := ?_, document_iff := ?_
      root_parent := ?_, children_nodup := ?_, children_parent := ?_
      parent_children := ?_, parent_branch := ?_, acyclic := ad.acyclic_relink wf
      leaf_children := ?_, root_text := ?_, root_elements := ?_ }
  · intro id parent h
    rw [hparent] at h
    rw [mem_relink]
    split at h
    · obtain rfl := Option.some.inj h
      exact hbranch
    · split at h
      · cases h
      · exact wf.parent_mem id parent h
  · intro other id h
    rw [hchildren] at h
    rw [mem_relink]
    split at h
    · exact ad.mem id h
    · exact wf.children_mem other id h
  · intro element id h
    rw [attributes_relink] at h
    rw [mem_relink]
    exact wf.attributes_mem element id h
  · intro id
    rw [nodeType?_relink]
    exact wf.document_iff id
  · rw [hparent, if_neg (ad.root_not_mem wf), if_neg wf.root_not_mem_children]
    exact wf.root_parent
  · intro other
    rw [hchildren]
    split
    · exact ad.nodup
    · exact wf.children_nodup other
  · intro other id h
    rw [hchildren] at h
    rw [hparent]
    split at h
    · next heq => rw [if_pos h, heq]
    · next hne =>
        have hother := wf.children_parent other id h
        have hcontent : id ∉ content := fun hid => hne (ad.parent_of_mem hid hother)
        have hformer : id ∉ doc.children branch := by
          intro hid
          rw [wf.children_parent branch id hid] at hother
          exact hne (Option.some.inj hother).symm
        rw [if_neg hcontent, if_neg hformer, hother]
  · intro id other h htype
    rw [hparent] at h
    rw [nodeType?_relink] at htype
    rw [hchildren]
    split at h
    · next hid =>
        rw [if_pos (Option.some.inj h).symm]
        exact hid
    · split at h
      · cases h
      · next hformer =>
          have hmem := wf.parent_children id other h htype
          have hne : other ≠ branch := fun heq => hformer (heq ▸ hmem)
          rw [if_neg hne]
          exact hmem
  · intro id other h
    rw [hparent] at h
    rw [isBranch_relink]
    split at h
    · obtain rfl := Option.some.inj h
      exact ad.isBranch
    · split at h
      · cases h
      · exact wf.parent_branch id other h
  · intro id h
    rw [isBranch_relink] at h
    have hne : id ≠ branch := fun heq => h (heq ▸ ad.isBranch)
    rw [hchildren, if_neg hne]
    exact wf.leaf_children id h
  · intro id h
    rw [hchildren] at h
    rw [nodeType?_relink]
    split at h
    · next heq =>
        -- a former child of the document node is no text, and no other text is taken
        intro htext
        rcases ad.free id h with hid | ⟨_, _, haccepts⟩
        · have hmem := wf.parent_children id branch hid (by rw [htext]; decide)
          exact wf.root_text id (heq ▸ hmem) htext
        · exact haccepts.ne_text (heq ▸ (wf.document_iff root).mpr rfl) htext
    · exact wf.root_text id h
  · rw [elementCount_relink, hchildren]
    split
    · next heq => exact ad.elements heq.symm
    · exact wf.root_elements

end Admissible

end XPathTree.Document
