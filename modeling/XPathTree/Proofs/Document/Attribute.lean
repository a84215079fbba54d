import XPathTree.Proofs.Document.Invariant

/-!
# Attributes

The lists of attributes are fixed when elements are created: each attribute is
listed by exactly one element, and if it has a parent, that element is it
(`AttributesListed`). Two things can go wrong with an attribute later on. It can
become a child of its element, because `setContent` takes every node whose parent is
the branch for a child of it; and once it is a child it can be detached, and no check
lets it back.

`attributes_kept_iff` says that this is all that can go wrong, and that it cannot be
undone: a run keeps attributes apart from contents if and only if none of its
commands successfully hands an attribute to `setContent`.
-/

namespace XPathTree.Document

variable {doc : Document} {branch id : NodeId} {content : List NodeId}

/-! ## Lists of attributes -/

/-- Attributes and the elements that list them. -/
structure AttributesListed (doc : Document) : Prop where
  type : ∀ element, ∀ id ∈ doc.attributes element, doc.nodeType? id = some .attribute
  nodup : ∀ element, (doc.attributes element).Nodup
  unique : ∀ element other id, id ∈ doc.attributes element → id ∈ doc.attributes other →
    element = other
  owned : ∀ id, doc.nodeType? id = some .attribute → ∃ element, id ∈ doc.attributes element
  parent : ∀ id parent, doc.nodeType? id = some .attribute → doc.parent? id = some parent →
    id ∈ doc.attributes parent

theorem attributes_empty (id : NodeId) : empty.attributes id = [] := by
  unfold attributes kind?
  rw [node?_empty]
  split <;> rfl

theorem nodeType?_empty_ne (id : NodeId) : empty.nodeType? id ≠ some .attribute := by
  unfold nodeType? kind?
  rw [node?_empty]
  split <;> simp [Node.detached, NodeKind.nodeType]

theorem attributesListed_empty : empty.AttributesListed := by
  refine ⟨?_, ?_, ?_, ?_, ?_⟩
  · intro element id h
    rw [attributes_empty] at h
    cases h
  · intro element
    rw [attributes_empty]
    exact List.nodup_nil
  · intro element other id h
    rw [attributes_empty] at h
    cases h
  · intro id h
    exact absurd h (nodeType?_empty_ne id)
  · intro id parent h
    exact absurd h (nodeType?_empty_ne id)

theorem nextHandles_nodup (doc : Document) (count : Nat) : (doc.nextHandles count).Nodup := by
  refine List.Nodup.map (fun i j h => ?_) List.nodup_range
  have hslot := congrArg NodeId.slot h
  simp only at hslot
  omega

/-- Creating nodes adds the list of the new element, with new attributes. -/
theorem Sprout.attributesListed {kind : NodeKind} {attributes : List (QName × String)}
    (sprout : doc.Sprout kind attributes) (wf : doc.WellFormed) (listed : doc.AttributesListed) :
    (doc.grow kind attributes).AttributesListed := by
  have hold : ∀ {element id}, id ∈ doc.attributes element →
      id ∉ doc.nextHandles attributes.length :=
    fun h hnew => doc.nextHandles_not_mem hnew (wf.attributes_mem _ _ h)
  -- an attribute is an old one or a new one, but never the new node itself
  have htype : ∀ {id}, (doc.grow kind attributes).nodeType? id = some .attribute →
      id ∈ doc ∧ doc.nodeType? id = some .attribute ∨
        id ∈ doc.nextHandles attributes.length := by
    intro id h
    have hmem := mem_of_nodeType? h
    rw [mem_grow_iff] at hmem
    rcases hmem with hmem | rfl | hmem
    · rw [doc.nodeType?_grow_of_mem kind attributes hmem] at h
      exact .inl ⟨hmem, h⟩
    · rw [nodeType?_grow_next] at h
      exact absurd (Option.some.inj h) sprout.not_attribute
    · exact .inr hmem
  refine ⟨?_, ?_, ?_, ?_, ?_⟩
  · intro element id h
    rcases sprout.mem_attributes_iff.mp h with h | ⟨_, h⟩
    · rw [doc.nodeType?_grow_of_mem kind attributes (wf.attributes_mem element id h)]
      exact listed.type element id h
    · exact doc.nodeType?_grow_of_mem_nextHandles kind attributes h
  · intro element
    by_cases hmem : element ∈ doc.grow kind attributes
    · rw [mem_grow_iff] at hmem
      rcases hmem with hmem | rfl | hmem
      · rw [doc.attributes_grow_of_mem kind attributes hmem]
        exact listed.nodup element
      · rw [attributes_grow_next, sprout.attributes]
        exact doc.nextHandles_nodup _
      · rw [doc.attributes_grow_of_mem_nextHandles kind attributes hmem]
        exact List.nodup_nil
    · rw [List.eq_nil_iff_forall_not_mem.mpr fun id h => hmem (mem_of_mem_attributes h)]
      exact List.nodup_nil
  · intro element other id h h'
    rcases sprout.mem_attributes_iff.mp h with hlisted | ⟨rfl, hnew⟩
    · rcases sprout.mem_attributes_iff.mp h' with hlisted' | ⟨_, hnew⟩
      · exact listed.unique element other id hlisted hlisted'
      · exact absurd hnew (hold hlisted)
    · rcases sprout.mem_attributes_iff.mp h' with hlisted' | ⟨rfl, _⟩
      · exact absurd hnew (hold hlisted')
      · rfl
  · intro id h
    rcases htype h with ⟨_, h⟩ | h
    · obtain ⟨element, h⟩ := listed.owned id h
      exact ⟨element, sprout.mem_attributes_iff.mpr (.inl h)⟩
    · exact ⟨doc.next, sprout.mem_attributes_iff.mpr (.inr ⟨rfl, h⟩)⟩
  · intro id parent h hparent
    rw [parent?_grow] at hparent
    split at hparent
    · next hnew =>
        obtain rfl := Option.some.inj hparent
        exact sprout.mem_attributes_iff.mpr (.inr ⟨rfl, hnew⟩)
    · next hnew =>
        rcases htype h with ⟨_, h⟩ | h
        · exact sprout.mem_attributes_iff.mpr (.inl (listed.parent id parent h hparent))
        · exact absurd h hnew

/-- An attribute in an admissible content has the branch as its parent already. -/
theorem Admissible.parent_of_attribute (ad : doc.Admissible branch content) (h : id ∈ content)
    (hattribute : doc.nodeType? id = some .attribute) : doc.parent? id = some branch := by
  rcases ad.free id h with hparent | ⟨_, _, haccepts⟩
  · exact hparent
  · exact absurd hattribute haccepts.ne_attribute

/-- A new content leaves the lists of attributes alone. -/
theorem Admissible.attributesListed (ad : doc.Admissible branch content) (wf : doc.WellFormed)
    (listed : doc.AttributesListed) : (doc.relink branch content).AttributesListed := by
  refine ⟨?_, ?_, ?_, ?_, ?_⟩
  · simpa using listed.type
  · simpa using listed.nodup
  · simpa using listed.unique
  · simpa using listed.owned
  · intro id parent h hparent
    rw [nodeType?_relink] at h
    rw [wf.parent?_relink ad.mem] at hparent
    rw [attributes_relink]
    split at hparent
    · next hid =>
        obtain rfl := Option.some.inj hparent
        exact listed.parent id branch h (ad.parent_of_attribute hid h)
    · split at hparent
      · cases hparent
      · exact listed.parent id parent h hparent

theorem AttributesListed.grown (listed : doc.AttributesListed) (wf : doc.WellFormed)
    (command : Command) : (doc.grown command).AttributesListed :=
  grown_cases listed (fun sprout => sprout.attributesListed wf listed) command

theorem AttributesListed.perform (listed : doc.AttributesListed) (wf : doc.WellFormed)
    (command : Command) : (doc.perform command).1.AttributesListed := by
  rcases wf.perform_cases command with h | ⟨branch, content, h⟩
  · rw [h]
    exact listed.grown wf command
  · rw [h.result]
    exact h.admissible.attributesListed (wf.grown command) (listed.grown wf command)

theorem AttributesListed.run (listed : doc.AttributesListed) (wf : doc.WellFormed)
    (commands : List Command) : (doc.run commands).AttributesListed := by
  induction commands generalizing doc with
  | nil => exact listed
  | cons command rest ih => exact ih (listed.perform wf command) (wf.perform command)

theorem Reachable.attributesListed (h : doc.Reachable) : doc.AttributesListed := by
  obtain ⟨commands, rfl⟩ := h
  exact attributesListed_empty.run wellFormed_empty commands

/-! ## Attributes that are created -/

/-- The attributes that a command creates, each with the element it belongs to. -/
def born (doc : Document) (command : Command) : List (NodeId × NodeId) :=
  match doc.commandCreates command with
  | some (_, attributes) => (doc.nextHandles attributes.length).map (doc.next, ·)
  | none => []

/-- The attributes that a run creates, each with the element it belongs to. -/
def bornDuring (doc : Document) : List Command → List (NodeId × NodeId)
  | [] => []
  | command :: rest => doc.born command ++ (doc.perform command).1.bornDuring rest

theorem WellFormed.mem_attributes_perform (wf : doc.WellFormed) {command : Command}
    {element : NodeId} :
    id ∈ (doc.perform command).1.attributes element ↔
      id ∈ doc.attributes element ∨ (element, id) ∈ doc.born command := by
  have hgrown : (doc.perform command).1.attributes element =
      (doc.grown command).attributes element := by
    rcases wf.perform_cases command with h | ⟨branch, content, h⟩
    · rw [h]
    · rw [h.result, attributes_relink]
  rw [hgrown]
  unfold born
  cases h : doc.commandCreates command with
  | none =>
      rw [grown_of_none h]
      simp
  | some created =>
      rw [grown_of_some h, (sprout_of_commandCreates h).mem_attributes_iff]
      simp [eq_comm, and_comm]

/-- The lists of attributes hold what was created, and nothing else. -/
theorem WellFormed.mem_attributes_run (wf : doc.WellFormed) {commands : List Command}
    {element : NodeId} :
    id ∈ (doc.run commands).attributes element ↔
      id ∈ doc.attributes element ∨ (element, id) ∈ doc.bornDuring commands := by
  induction commands generalizing doc with
  | nil =>
      show id ∈ doc.attributes element ↔ _
      simp [bornDuring]
  | cons command rest ih =>
      show id ∈ ((doc.perform command).1.run rest).attributes element ↔ _
      rw [ih (wf.perform command), wf.mem_attributes_perform, or_assoc, ← List.mem_append]
      rfl

/-! ## Attributes that go astray -/

/-- The node is an attribute that is a child, or one that has no parent. -/
def Astray (doc : Document) (id : NodeId) : Prop :=
  doc.nodeType? id = some .attribute ∧
    ((∃ branch, id ∈ doc.children branch) ∨ doc.parent? id = none)

/-- Created attributes are in order. -/
theorem astray_grown_iff (wf : doc.WellFormed) (command : Command) :
    (doc.grown command).Astray id ↔ doc.Astray id := by
  refine grown_cases (P := fun grown => grown.Astray id ↔ doc.Astray id) .rfl (fun sprout => ?_)
    command
  by_cases hid : id ∈ doc
  · unfold Astray
    rw [doc.nodeType?_grow_of_mem _ _ hid, parent?_grow,
      if_neg fun hnew => doc.nextHandles_not_mem hnew hid]
    simp only [children_grow]
  · -- a new attribute has its element as parent and is no child
    refine iff_of_false ?_ fun hastray => hid (mem_of_nodeType? hastray.1)
    rintro ⟨htype, hplace⟩
    have hmem := mem_of_nodeType? htype
    rw [mem_grow_iff] at hmem
    rcases hmem with hmem | rfl | hmem
    · exact hid hmem
    · rw [nodeType?_grow_next] at htype
      exact sprout.not_attribute (Option.some.inj htype)
    · rcases hplace with ⟨branch, hchild⟩ | hnone
      · rw [children_grow] at hchild
        exact hid (wf.children_mem branch id hchild)
      · rw [parent?_grow, if_pos hmem] at hnone
        cases hnone

/-- An attribute that has gone astray stays so. -/
theorem Admissible.astray_relink (ad : doc.Admissible branch content) (wf : doc.WellFormed)
    (h : doc.Astray id) : (doc.relink branch content).Astray id := by
  obtain ⟨hattribute, hplace⟩ := h
  refine ⟨by rwa [nodeType?_relink], ?_⟩
  rw [wf.parent?_relink ad.mem]
  by_cases hcontent : id ∈ content
  · refine .inl ⟨branch, ?_⟩
    rwa [children_relink _ _ _ ad.isBranch.mem, if_pos rfl]
  · rw [if_neg hcontent]
    rcases hplace with ⟨other, hchild⟩ | hnone
    · by_cases heq : other = branch
      · subst heq
        exact .inr (if_pos hchild)
      · refine .inl ⟨other, ?_⟩
        rwa [children_relink _ _ _ ad.isBranch.mem, if_neg heq]
    · right
      split
      · rfl
      · exact hnone

/-- A content without new attributes leads none astray. -/
theorem Admissible.astray_of_relink (ad : doc.Admissible branch content) (wf : doc.WellFormed)
    (takes : doc.TakesNoAttribute branch content) (h : (doc.relink branch content).Astray id) :
    doc.Astray id := by
  obtain ⟨hattribute, hplace⟩ := h
  rw [nodeType?_relink] at hattribute
  refine ⟨hattribute, ?_⟩
  rcases hplace with ⟨other, hchild⟩ | hnone
  · rw [children_relink _ _ _ ad.isBranch.mem] at hchild
    split at hchild
    · exact .inl ⟨branch, takes id hchild hattribute⟩
    · exact .inl ⟨other, hchild⟩
  · rw [wf.parent?_relink ad.mem] at hnone
    by_cases hchild : id ∈ doc.children branch
    · exact .inl ⟨branch, hchild⟩
    · rw [if_neg hchild] at hnone
      split at hnone
      · cases hnone
      · exact .inr hnone

/-! ## Commands that lead attributes astray -/

/-- The command hands an attribute to `setContent`. -/
def HandsAttribute (doc : Document) : Command → Prop
  | .edit _ (.setContent content) => ∃ id ∈ content, doc.nodeType? id = some .attribute
  | _ => False

instance (doc : Document) : ∀ command, Decidable (doc.HandsAttribute command)
  | .createElement .. | .createText .. | .createComment .. | .createInstruction .. =>
    inferInstanceAs (Decidable False)
  | .edit _ change =>
    match change with
    | .setContent content =>
      inferInstanceAs (Decidable (∃ id ∈ content, doc.nodeType? id = some .attribute))
    | .add .. | .push .. | .insert .. | .remove .. | .removeAt .. | .clear | .retain ..
    | .setInstructions .. | .removeInstruction .. | .addElement .. | .addText ..
    | .addComment .. | .addInstruction .. => inferInstanceAs (Decidable False)

/-- Some command of a run hands an attribute to `setContent`. -/
def HandsAttributes (doc : Document) : List Command → Prop
  | [] => False
  | command :: rest => doc.HandsAttribute command ∨ (doc.perform command).1.HandsAttributes rest

instance decidableHandsAttributes (doc : Document) :
    ∀ commands, Decidable (doc.HandsAttributes commands)
  | [] => inferInstanceAs (Decidable False)
  | command :: rest =>
    have := (doc.perform command).1.decidableHandsAttributes rest
    inferInstanceAs (Decidable (_ ∨ _))

/-- Some command of a run hands an attribute to `setContent`, which takes it. -/
def AdmitsAttribute (doc : Document) : List Command → Prop
  | [] => False
  | command :: rest =>
    doc.HandsAttribute command ∧ (doc.perform command).2.isOk = true ∨
      (doc.perform command).1.AdmitsAttribute rest

theorem handsAttributes_of_admitsAttribute {commands : List Command}
    (h : doc.AdmitsAttribute commands) : doc.HandsAttributes commands := by
  induction commands generalizing doc with
  | nil => exact h
  | cons command rest ih => exact h.imp And.left ih

/-- A content that is taken becomes the content. -/
theorem perform_setContent
    (h : (doc.perform (.edit branch (.setContent content))).2.isOk = true) :
    branch ∈ doc ∧
      (doc.perform (.edit branch (.setContent content))).1 = doc.relink branch content := by
  have hperform : doc.perform (.edit branch (.setContent content)) =
      doc.edit branch (.setContent content) := rfl
  rw [hperform] at h ⊢
  by_cases hbranch : doc.IsBranch branch
  · rw [edit_of_isBranch hbranch] at h ⊢
    rw [editContent, apply_bind_pure, apply_setContent] at h ⊢
    cases hcheck : doc.checkContent branch [] content with
    | error refusal =>
        rw [hcheck] at h
        cases h
    | ok _ => exact ⟨hbranch.mem, rfl⟩
  · obtain ⟨refusal, hrefused⟩ := edit_of_not_isBranch hbranch
    rw [hrefused] at h
    cases h

/-- After a command an attribute is astray if one was before, or if the command made
`setContent` take one. -/
theorem WellFormed.astray_perform_iff (wf : doc.WellFormed) (command : Command) :
    (∃ id, (doc.perform command).1.Astray id) ↔
      (∃ id, doc.Astray id) ∨
        doc.HandsAttribute command ∧ (doc.perform command).2.isOk = true := by
  have wf' := wf.grown command
  constructor
  · rintro ⟨id, h⟩
    rcases wf.perform_cases command with hresult | ⟨branch, content, hlinks⟩
    · rw [hresult, astray_grown_iff wf] at h
      exact .inl ⟨id, h⟩
    · rw [hlinks.result] at h
      by_cases htakes : (doc.grown command).TakesNoAttribute branch content
      · have hastray := hlinks.admissible.astray_of_relink wf' htakes h
        exact .inl ⟨id, (astray_grown_iff wf command).mp hastray⟩
      · obtain rfl := hlinks.origin.resolve_right htakes
        rw [grown_of_none (commandCreates_edit_of_idle fun _ => rfl)] at htakes
        obtain ⟨outcome, houtcome⟩ := hlinks.succeeds
        refine .inr ⟨?_, by rw [houtcome]; rfl⟩
        by_contra hnone
        exact htakes fun x hx hattribute => absurd ⟨x, hx, hattribute⟩ hnone
  · rintro (⟨id, h⟩ | ⟨hhands, hok⟩)
    · have hgrown := (astray_grown_iff wf command).mpr h
      rcases wf.perform_cases command with hresult | ⟨branch, content, hlinks⟩
      · exact ⟨id, by rwa [hresult]⟩
      · rw [hlinks.result]
        exact ⟨id, hlinks.admissible.astray_relink wf' hgrown⟩
    · match command, hhands, hok with
      | .edit branch (.setContent content), ⟨id, hid, hattribute⟩, hok =>
          obtain ⟨hbranch, hresult⟩ := perform_setContent hok
          rw [hresult]
          refine ⟨id, by rwa [nodeType?_relink], .inl ⟨branch, ?_⟩⟩
          rwa [children_relink _ _ _ hbranch, if_pos rfl]

theorem WellFormed.astray_run_iff (wf : doc.WellFormed) (commands : List Command) :
    (∃ id, (doc.run commands).Astray id) ↔
      (∃ id, doc.Astray id) ∨ doc.AdmitsAttribute commands := by
  induction commands generalizing doc with
  | nil =>
      show (∃ id, doc.Astray id) ↔ _
      simp [AdmitsAttribute]
  | cons command rest ih =>
      show (∃ id, ((doc.perform command).1.run rest).Astray id) ↔ _
      rw [ih (wf.perform command), wf.astray_perform_iff, or_assoc]
      rfl

/-! ## Attributes apart from contents -/

/-- No attribute is a child, and each has the element that lists it as its parent. -/
structure AttributesApart (doc : Document) : Prop where
  not_child : ∀ branch, ∀ id ∈ doc.children branch, doc.nodeType? id ≠ some .attribute
  parent : ∀ element, ∀ id ∈ doc.attributes element, doc.parent? id = some element

theorem AttributesListed.apart_iff (listed : doc.AttributesListed) :
    doc.AttributesApart ↔ ¬ ∃ id, doc.Astray id := by
  constructor
  · rintro apart ⟨id, hattribute, ⟨branch, hchild⟩ | hnone⟩
    · exact apart.not_child branch id hchild hattribute
    · obtain ⟨element, hlisted⟩ := listed.owned id hattribute
      rw [apart.parent element id hlisted] at hnone
      cases hnone
  · intro hnone
    refine ⟨fun branch id hchild hattribute => hnone ⟨id, hattribute, .inl ⟨branch, hchild⟩⟩, ?_⟩
    intro element id hlisted
    have hattribute := listed.type element id hlisted
    cases hparent : doc.parent? id with
    | none => exact absurd ⟨id, hattribute, .inr hparent⟩ hnone
    | some parent =>
        have hlisted' := listed.parent id parent hattribute hparent
        rw [listed.unique element parent id hlisted hlisted']

/-- A run keeps attributes apart from contents if and only if `setContent` takes none. -/
theorem attributesApart_run_iff (commands : List Command) :
    (empty.run commands).AttributesApart ↔ ¬ empty.AdmitsAttribute commands := by
  have listed := attributesListed_empty.run wellFormed_empty commands
  rw [listed.apart_iff, wellFormed_empty.astray_run_iff commands]
  have hempty : ¬ ∃ id, empty.Astray id := fun ⟨id, h⟩ => nodeType?_empty_ne id h.1
  rw [or_iff_right hempty]

/-- What is promised of attributes: none is content, and every one that was created with
an element is still listed once by it and still has it as its parent. -/
structure AttributesKept (doc : Document) (created : List (NodeId × NodeId)) : Prop where
  not_child : ∀ branch, ∀ id ∈ doc.children branch, doc.nodeType? id ≠ some .attribute
  listed_once : ∀ element id, (element, id) ∈ created → (doc.attributes element).count id = 1
  parent : ∀ element id, (element, id) ∈ created → doc.parent? id = some element

/-- The promise is kept by exactly the runs that do not make `setContent` take an
attribute. -/
theorem attributes_kept_iff (commands : List Command) :
    (empty.run commands).AttributesKept (empty.bornDuring commands) ↔
      ¬ empty.AdmitsAttribute commands := by
  rw [← attributesApart_run_iff]
  have listed := attributesListed_empty.run wellFormed_empty commands
  -- what was created is what is listed, so that only the parents and children are in question
  have hborn : ∀ element id, (element, id) ∈ empty.bornDuring commands ↔
      id ∈ (empty.run commands).attributes element := by
    intro element id
    rw [wellFormed_empty.mem_attributes_run, attributes_empty]
    simp
  constructor
  · intro kept
    refine ⟨kept.not_child, fun element id hlisted => ?_⟩
    exact kept.parent element id ((hborn element id).mpr hlisted)
  · intro apart
    refine ⟨apart.not_child, fun element id hcreated => ?_, fun element id hcreated => ?_⟩
    · have hlisted := (hborn element id).mp hcreated
      exact List.count_eq_one_of_mem (listed.nodup element) hlisted
    · exact apart.parent element id ((hborn element id).mp hcreated)

/-- An element takes its own attribute for a child, and clearing it leaves the attribute
without a parent. -/
theorem attributes_not_kept :
    let commands : List Command :=
      [.createElement (.plain "e") [(.plain "a", "v")], .edit ⟨1⟩ (.setContent [⟨2⟩])]
    ¬ (empty.run commands).AttributesKept (empty.bornDuring commands) ∧
      ¬ (empty.run (commands ++ [.edit ⟨1⟩ .clear])).AttributesKept
        (empty.bornDuring (commands ++ [.edit ⟨1⟩ .clear])) := by
  refine ⟨fun kept => ?_, fun kept => ?_⟩
  · exact kept.not_child ⟨1⟩ ⟨2⟩ (by decide) (by decide)
  · exact absurd (kept.parent ⟨1⟩ ⟨2⟩ (by decide)) (by decide)

end XPathTree.Document
