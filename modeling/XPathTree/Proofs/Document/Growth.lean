import XPathTree.Proofs.Document.Ancestry

/-!
# Created nodes

Creating a node fills the next free slot, and for an element the slots behind it
with its attributes. Both ways of creating are `grow`: a detached node and some
attributes that name it as their parent. Nothing about older nodes changes, and
the new ones are in no child list (`Sprout.wellFormed`).
-/

namespace XPathTree.Document

/-- The document with a detached node of the given kind in the next slot, and
attributes of that node in the slots behind it. -/
def grow (doc : Document) (kind : NodeKind) (attributes : List (QName × String)) : Document :=
  ⟨doc.nodes.push (.detached kind) ++
    attributes.map fun (name, value) => Node.mk (.attribute name value) (some doc.next) []⟩

/-- The kind of a new node fits the attributes that come with it. -/
structure Sprout (doc : Document) (kind : NodeKind) (attributes : List (QName × String)) :
    Prop where
  not_document : kind.nodeType ≠ .document
  not_attribute : kind.nodeType ≠ .attribute
  attributes : kind.attributes = doc.nextHandles attributes.length

theorem create_eq_grow (doc : Document) (kind : NodeKind) :
    doc.create kind = (doc.next, doc.grow kind []) := by
  simp [create, grow]

theorem sprout_element (doc : Document) (name : QName) (attributes : List (QName × String)) :
    doc.Sprout (.element name (doc.nextHandles attributes.length)) attributes :=
  ⟨NodeType.noConfusion, NodeType.noConfusion, rfl⟩

section Views

variable (doc : Document) (kind : NodeKind) (attributes : List (QName × String)) {id : NodeId}

theorem mem_nextHandles_iff {count : Nat} :
    id ∈ doc.nextHandles count ↔ doc.size < id.slot ∧ id.slot ≤ doc.size + count := by
  obtain ⟨slot⟩ := id
  simp only [nextHandles, List.mem_map, List.mem_range, NodeId.mk.injEq]
  constructor
  · rintro ⟨i, hi, rfl⟩
    omega
  · intro h
    exact ⟨slot - (doc.size + 1), by omega, by omega⟩

theorem next_not_mem : doc.next ∉ doc := Nat.lt_irrefl _

theorem nextHandles_not_mem {count : Nat} (h : id ∈ doc.nextHandles count) : id ∉ doc := by
  have hslot := (doc.mem_nextHandles_iff).mp h
  show ¬ id.slot < doc.size
  omega

theorem next_not_mem_nextHandles (count : Nat) : doc.next ∉ doc.nextHandles count := by
  intro h
  have hslot := ((doc.mem_nextHandles_iff).mp h).1
  exact Nat.lt_irrefl _ hslot

@[simp] theorem size_grow :
    (doc.grow kind attributes).size = doc.size + 1 + attributes.length := by
  simp only [grow, size, ← Array.length_toList, Array.toList_appendList, Array.toList_push,
    List.length_append, List.length_map, List.length_singleton]

/-- The slots in use after growing: the old ones, the next one, and one for each
attribute. -/
theorem mem_grow_iff :
    id ∈ doc.grow kind attributes ↔
      id ∈ doc ∨ id = doc.next ∨ id ∈ doc.nextHandles attributes.length := by
  rw [mem_nextHandles_iff]
  obtain ⟨slot⟩ := id
  show slot < (doc.grow kind attributes).size ↔
    slot < doc.size ∨ NodeId.mk slot = ⟨doc.size⟩ ∨ _
  rw [size_grow, NodeId.mk.injEq]
  show _ ↔ slot < doc.size ∨ slot = doc.size ∨
    doc.size < slot ∧ slot ≤ doc.size + attributes.length
  omega

theorem mem_grow_of_mem (h : id ∈ doc) : id ∈ doc.grow kind attributes :=
  (doc.mem_grow_iff kind attributes).mpr (.inl h)

theorem node?_grow_of_mem (h : id ∈ doc) :
    (doc.grow kind attributes).node? id = doc.node? id := by
  have hslot : id.slot < doc.nodes.toList.length := h
  simp only [grow, node?, ← Array.getElem?_toList, Array.toList_appendList,
    Array.toList_push, List.append_assoc]
  exact List.getElem?_append_left hslot

theorem node?_grow_next :
    (doc.grow kind attributes).node? doc.next = some (.detached kind) := by
  simp only [grow, node?, next, size, ← Array.getElem?_toList, Array.toList_appendList,
    Array.toList_push, List.append_assoc, ← Array.length_toList]
  simp

/-- A new attribute names the new node as its parent. -/
theorem node?_grow_attribute {i : Nat} (hi : i < attributes.length) :
    (doc.grow kind attributes).node? ⟨doc.size + 1 + i⟩ =
      some ⟨.attribute attributes[i].1 attributes[i].2, some doc.next, []⟩ := by
  simp only [grow, node?, size, ← Array.getElem?_toList, Array.toList_appendList,
    Array.toList_push, ← Array.length_toList]
  rw [List.getElem?_append_right (by simp)]
  simp [hi]

theorem node?_grow_of_mem_nextHandles (h : id ∈ doc.nextHandles attributes.length) :
    ∃ name value, (doc.grow kind attributes).node? id =
      some ⟨.attribute name value, some doc.next, []⟩ := by
  obtain ⟨i, hi, rfl⟩ := List.mem_map.mp h
  rw [List.mem_range] at hi
  exact ⟨attributes[i].1, attributes[i].2, doc.node?_grow_attribute kind attributes hi⟩

theorem kind?_grow_of_mem (h : id ∈ doc) :
    (doc.grow kind attributes).kind? id = doc.kind? id := by
  unfold kind?
  rw [doc.node?_grow_of_mem kind attributes h]

theorem kind?_grow_next : (doc.grow kind attributes).kind? doc.next = some kind := by
  unfold kind?
  rw [node?_grow_next]
  rfl

theorem nodeType?_grow_of_mem (h : id ∈ doc) :
    (doc.grow kind attributes).nodeType? id = doc.nodeType? id := by
  unfold nodeType?
  rw [doc.kind?_grow_of_mem kind attributes h]

theorem nodeType?_grow_next :
    (doc.grow kind attributes).nodeType? doc.next = some kind.nodeType := by
  unfold nodeType?
  rw [kind?_grow_next]
  rfl

theorem nodeType?_grow_of_mem_nextHandles (h : id ∈ doc.nextHandles attributes.length) :
    (doc.grow kind attributes).nodeType? id = some .attribute := by
  obtain ⟨name, value, hnode⟩ := doc.node?_grow_of_mem_nextHandles kind attributes h
  unfold nodeType? kind?
  rw [hnode]
  rfl

theorem attributes_grow_of_mem (h : id ∈ doc) :
    (doc.grow kind attributes).attributes id = doc.attributes id := by
  unfold Document.attributes
  rw [doc.kind?_grow_of_mem kind attributes h]

theorem attributes_grow_next :
    (doc.grow kind attributes).attributes doc.next = kind.attributes := by
  unfold Document.attributes
  rw [kind?_grow_next]
  rfl

theorem attributes_grow_of_mem_nextHandles (h : id ∈ doc.nextHandles attributes.length) :
    (doc.grow kind attributes).attributes id = [] := by
  obtain ⟨name, value, hnode⟩ := doc.node?_grow_of_mem_nextHandles kind attributes h
  unfold Document.attributes kind?
  rw [hnode]
  rfl

theorem parent?_grow (id : NodeId) :
    (doc.grow kind attributes).parent? id =
      if id ∈ doc.nextHandles attributes.length then some doc.next else doc.parent? id := by
  split
  · next h =>
      obtain ⟨name, value, hnode⟩ := doc.node?_grow_of_mem_nextHandles kind attributes h
      unfold parent?
      rw [hnode]
      rfl
  · next hnew =>
      by_cases h : id ∈ doc
      · unfold parent?
        rw [doc.node?_grow_of_mem kind attributes h]
      · rw [parent?_eq_none_of_not_mem h]
        by_cases hnext : id = doc.next
        · unfold parent?
          rw [hnext, node?_grow_next]
          rfl
        · refine parent?_eq_none_of_not_mem fun hmem => ?_
          rw [mem_grow_iff] at hmem
          rcases hmem with hmem | hmem | hmem
          · exact h hmem
          · exact hnext hmem
          · exact hnew hmem

@[simp] theorem children_grow (id : NodeId) :
    (doc.grow kind attributes).children id = doc.children id := by
  by_cases h : id ∈ doc
  · unfold children
    rw [doc.node?_grow_of_mem kind attributes h]
  · rw [children_eq_nil_of_not_mem h]
    by_cases hmem : id ∈ doc.grow kind attributes
    · rw [mem_grow_iff] at hmem
      unfold children
      rcases hmem with hmem | rfl | hmem
      · exact absurd hmem h
      · rw [node?_grow_next]
        rfl
      · obtain ⟨name, value, hnode⟩ := doc.node?_grow_of_mem_nextHandles kind attributes hmem
        rw [hnode]
        rfl
    · exact children_eq_nil_of_not_mem hmem

end Views

namespace Sprout

variable {doc : Document} {kind : NodeKind} {attributes : List (QName × String)}
variable (sprout : doc.Sprout kind attributes)
include sprout

/-- Only an element comes with attributes. -/
theorem isBranch_next {id : NodeId} (h : id ∈ doc.nextHandles attributes.length) :
    (doc.grow kind attributes).IsBranch doc.next := by
  refine .inr ?_
  rw [nodeType?_grow_next]
  rw [← sprout.attributes] at h
  cases kind with
  | element name list => rfl
  | _ => cases h

theorem mem_attributes_iff {element id : NodeId} :
    id ∈ (doc.grow kind attributes).attributes element ↔
      id ∈ doc.attributes element ∨
        element = doc.next ∧ id ∈ doc.nextHandles attributes.length := by
  constructor
  · intro h
    have helement := mem_of_mem_attributes h
    rw [mem_grow_iff] at helement
    rcases helement with hmem | rfl | hmem
    · rw [doc.attributes_grow_of_mem kind attributes hmem] at h
      exact .inl h
    · rw [attributes_grow_next, sprout.attributes] at h
      exact .inr ⟨rfl, h⟩
    · rw [doc.attributes_grow_of_mem_nextHandles kind attributes hmem] at h
      cases h
  · rintro (h | ⟨rfl, h⟩)
    · rwa [doc.attributes_grow_of_mem kind attributes (mem_of_mem_attributes h)]
    · rwa [attributes_grow_next, sprout.attributes]

/-- Creating nodes keeps a document well-formed. -/
theorem wellFormed (wf : doc.WellFormed) : (doc.grow kind attributes).WellFormed := by
  have hmem : ∀ {id}, id ∈ doc → id ∈ doc.grow kind attributes :=
    doc.mem_grow_of_mem kind attributes
  have hnew : ∀ {id}, id ∈ doc.nextHandles attributes.length → id ∉ doc :=
    doc.nextHandles_not_mem
  -- the one new kind of link leads from a new attribute to the new node
  have hparent := doc.parent?_grow kind attributes
  have hchildType : ∀ {branch id}, id ∈ doc.children branch →
      (doc.grow kind attributes).nodeType? id = doc.nodeType? id :=
    fun h => doc.nodeType?_grow_of_mem kind attributes (wf.children_mem _ _ h)
  refine
    { parent_mem := ?_, children_mem := ?_, attributes_mem := ?_, document_iff := ?_
      root_parent := ?_, children_nodup := ?_, children_parent := ?_
      parent_children := ?_, parent_branch := ?_, acyclic := ?_, leaf_children := ?_
      root_text := ?_, root_elements := ?_ }
  · intro id parent h
    rw [hparent] at h
    split at h
    · obtain rfl := Option.some.inj h
      exact (doc.mem_grow_iff kind attributes).mpr (.inr (.inl rfl))
    · exact hmem (wf.parent_mem id parent h)
  · intro branch id h
    rw [children_grow] at h
    exact hmem (wf.children_mem branch id h)
  · intro element id h
    rcases sprout.mem_attributes_iff.mp h with h | ⟨_, h⟩
    · exact hmem (wf.attributes_mem element id h)
    · exact (doc.mem_grow_iff kind attributes).mpr (.inr (.inr h))
  · intro id
    by_cases hid : id ∈ doc
    · rw [doc.nodeType?_grow_of_mem kind attributes hid]
      exact wf.document_iff id
    · -- no new node is a document node, and slot 0 is not new
      have hne : id ≠ root := fun heq => hid (heq ▸ wf.root_mem)
      refine iff_of_false (fun h => ?_) hne
      have hgrown := mem_of_nodeType? h
      rw [mem_grow_iff] at hgrown
      rcases hgrown with hgrown | rfl | hgrown
      · exact hid hgrown
      · rw [nodeType?_grow_next] at h
        exact sprout.not_document (Option.some.inj h)
      · rw [doc.nodeType?_grow_of_mem_nextHandles kind attributes hgrown] at h
        cases h
  · rw [hparent, if_neg fun h => hnew h wf.root_mem]
    exact wf.root_parent
  · intro branch
    rw [children_grow]
    exact wf.children_nodup branch
  · intro branch id h
    rw [children_grow] at h
    rw [hparent, if_neg fun hid => hnew hid (wf.children_mem branch id h)]
    exact wf.children_parent branch id h
  · intro id branch h htype
    rw [hparent] at h
    split at h
    · next hid =>
        exact absurd (doc.nodeType?_grow_of_mem_nextHandles kind attributes hid) htype
    · rw [doc.nodeType?_grow_of_mem kind attributes (mem_of_parent? h)] at htype
      rw [children_grow]
      exact wf.parent_children id branch h htype
  · intro id branch h
    rw [hparent] at h
    split at h
    · next hid =>
        obtain rfl := Option.some.inj h
        exact sprout.isBranch_next hid
    · have hbranch := wf.parent_branch id branch h
      unfold IsBranch at hbranch ⊢
      rwa [doc.nodeType?_grow_of_mem kind attributes (wf.parent_mem id branch h)]
  · -- old nodes keep their rank; a new attribute ranks above the new node
    refine acyclic_of_rank (fun id => if id ∈ doc then (doc.ancestors id).length
      else if id = doc.next then 0 else 1) fun parent child h => ?_
    rw [hparent] at h
    split at h
    · next hchild =>
        obtain rfl := Option.some.inj h
        have hne : child ≠ doc.next := by
          rintro rfl
          exact doc.next_not_mem_nextHandles _ hchild
        simp [doc.next_not_mem, hnew hchild, hne]
    · have hlength := congrArg List.length (wf.ancestors_of_parent h)
      rw [List.length_cons] at hlength
      simp only [if_pos (mem_of_parent? h), if_pos (wf.parent_mem child parent h)]
      omega
  · intro id h
    rw [children_grow]
    by_cases hid : id ∈ doc
    · refine wf.leaf_children id fun hbranch => h ?_
      unfold IsBranch at hbranch ⊢
      rwa [doc.nodeType?_grow_of_mem kind attributes hid]
    · exact children_eq_nil_of_not_mem hid
  · intro id h
    rw [children_grow] at h
    rw [hchildType h]
    exact wf.root_text id h
  · rw [children_grow]
    refine Nat.le_trans (Nat.le_of_eq ?_) wf.root_elements
    refine List.countP_congr fun id h => ?_
    rw [hchildType h]

end Sprout

end XPathTree.Document
