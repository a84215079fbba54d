import Mathlib.Logic.Relation
import XPathTree.Proofs.Document.Link

/-!
# Well-formed documents

Parents, child lists and types of nodes describe one forest three times.
`WellFormed` says that they agree: children and parents point at each other, the
parent relation has no cycle, only branches have children, and the document node
in slot 0 takes no text and at most one element.

Attributes stand apart. Their parent is their element, but whether one of them is
also among its children is left open here.
-/

namespace XPathTree.Document

/-- The first node is the parent of the second. -/
def Parent (doc : Document) (parent child : NodeId) : Prop :=
  doc.parent? child = some parent

/-- The first node is a proper ancestor of the second. -/
def Ancestor (doc : Document) : NodeId → NodeId → Prop := Relation.TransGen doc.Parent

/-- The first node is the second or an ancestor of it. -/
def AncestorOrSelf (doc : Document) : NodeId → NodeId → Prop :=
  Relation.ReflTransGen doc.Parent

/-- The document node or an element. -/
def IsBranch (doc : Document) (id : NodeId) : Prop :=
  doc.nodeType? id = some .document ∨ doc.nodeType? id = some .element

instance (doc : Document) (id : NodeId) : Decidable (doc.IsBranch id) :=
  inferInstanceAs (Decidable (_ ∨ _))

/-- The three descriptions of the forest agree. -/
structure WellFormed (doc : Document) : Prop where
  parent_mem : ∀ id parent, doc.parent? id = some parent → parent ∈ doc
  children_mem : ∀ branch, ∀ id ∈ doc.children branch, id ∈ doc
  attributes_mem : ∀ element, ∀ id ∈ doc.attributes element, id ∈ doc
  /-- Slot 0 holds the only document node. -/
  document_iff : ∀ id, doc.nodeType? id = some .document ↔ id = root
  root_parent : doc.parent? root = none
  children_nodup : ∀ branch, (doc.children branch).Nodup
  children_parent : ∀ branch, ∀ id ∈ doc.children branch, doc.parent? id = some branch
  parent_children : ∀ id branch, doc.parent? id = some branch →
    doc.nodeType? id ≠ some .attribute → id ∈ doc.children branch
  parent_branch : ∀ id branch, doc.parent? id = some branch → doc.IsBranch branch
  acyclic : ∀ id, ¬ doc.Ancestor id id
  leaf_children : ∀ id, ¬ doc.IsBranch id → doc.children id = []
  root_text : ∀ id ∈ doc.children root, doc.nodeType? id ≠ some .text
  root_elements : doc.elementCount (doc.children root) ≤ 1

variable {doc : Document}

theorem IsBranch.mem {id : NodeId} (h : doc.IsBranch id) : id ∈ doc := by
  rcases h with h | h
  · exact mem_of_nodeType? h
  · exact mem_of_nodeType? h

/-- A handle passes as a branch exactly when it is one. -/
theorem checkBranch_eq_ok_iff {operation : Operation} {id : NodeId} :
    doc.checkBranch operation id = .ok () ↔ doc.IsBranch id := by
  unfold checkBranch IsBranch
  cases h : doc.nodeType? id with
  | none => simp
  | some found => cases found <;> simp [NodeType.isBranch]

theorem WellFormed.root_mem (wf : doc.WellFormed) : root ∈ doc :=
  mem_of_nodeType? ((wf.document_iff root).mpr rfl)

/-- A measure that grows from parents to children rules out cycles. -/
theorem acyclic_of_rank (rank : NodeId → Nat)
    (step : ∀ parent child, doc.parent? child = some parent → rank parent < rank child) :
    ∀ id, ¬ doc.Ancestor id id := by
  have climb : ∀ {a id}, doc.Ancestor a id → rank a < rank id := by
    intro a id h
    induction h with
    | single h => exact step _ _ h
    | tail _ h ih => exact Nat.lt_trans ih (step _ _ h)
  intro id h
  exact Nat.lt_irrefl _ (climb h)

/-- The empty document holds its document node and nothing else. -/
theorem node?_empty (id : NodeId) :
    empty.node? id = if id = root then some (.detached .document) else none := by
  obtain ⟨slot⟩ := id
  cases slot with
  | zero => rfl
  | succ slot =>
      have hne : (⟨slot + 1⟩ : NodeId) ≠ root := by simp [root]
      rw [if_neg hne]
      rfl

/-- The empty document is well-formed: no node has a parent or children. -/
theorem wellFormed_empty : empty.WellFormed := by
  have hparent : ∀ id, empty.parent? id = none := by
    intro id
    unfold parent?
    rw [node?_empty]
    split <;> rfl
  have hchildren : ∀ id, empty.children id = [] := by
    intro id
    unfold children
    rw [node?_empty]
    split <;> rfl
  have hattributes : ∀ id, empty.attributes id = [] := by
    intro id
    unfold attributes kind?
    rw [node?_empty]
    split <;> rfl
  refine
    { parent_mem := ?_, children_mem := ?_, attributes_mem := ?_, document_iff := ?_
      root_parent := rfl, children_nodup := ?_, children_parent := ?_
      parent_children := ?_, parent_branch := ?_, acyclic := ?_, leaf_children := ?_
      root_text := ?_, root_elements := by decide }
  · intro id parent h
    rw [hparent] at h
    cases h
  · intro branch id h
    rw [hchildren] at h
    cases h
  · intro element id h
    rw [hattributes] at h
    cases h
  · intro id
    unfold nodeType? kind?
    rw [node?_empty]
    split
    · simp_all [Node.detached, NodeKind.nodeType]
    · simp_all
  · intro branch
    rw [hchildren]
    exact List.nodup_nil
  · intro branch id h
    rw [hchildren] at h
    cases h
  · intro id branch h
    rw [hparent] at h
    cases h
  · intro id branch h
    rw [hparent] at h
    cases h
  · refine acyclic_of_rank (fun _ => 0) fun parent child h => ?_
    rw [hparent] at h
    cases h
  · intro id _
    exact hchildren id
  · intro id h
    rw [hchildren] at h
    cases h

end XPathTree.Document
