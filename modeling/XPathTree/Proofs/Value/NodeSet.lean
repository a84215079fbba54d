import XPathTree.Proofs.Document.Sorting
import XPathTree.Value.Basic

/-!
# Node-sets

A node-set holds its nodes in document order. `ofNodes` makes one of any handles, and two such
sets are equal exactly when they have the same members. The laws of `union` are those of the
members: union is commutative, associative and idempotent.
-/

namespace XPathTree.NodeSet

/-- Each node is before all nodes behind it. -/
def InOrder (doc : Document) (set : NodeSet) : Prop := doc.InOrder set.nodes

variable {doc : Document} {id : NodeId} {ids ids' : List NodeId} {a b c : NodeSet}

theorem inOrder_empty : empty.InOrder doc := Document.InOrder.nil

theorem inOrder_singleton (id : NodeId) : (singleton id).InOrder doc :=
  Document.InOrder.singleton id

/-- Sets in order are equal when they have the same members. -/
theorem InOrder.eq_of_mem_iff (ha : a.InOrder doc) (hb : b.InOrder doc)
    (h : ∀ id, id ∈ a.nodes ↔ id ∈ b.nodes) : a = b := by
  obtain ⟨nodes⟩ := a
  exact congrArg NodeSet.mk (Document.InOrder.eq_of_mem_iff ha hb h)

section Laws

variable (orderly : doc.Orderly)
include orderly

theorem mem_ofNodes_iff : id ∈ (ofNodes doc ids).nodes ↔ id ∈ ids := orderly.mem_sort_iff

theorem inOrder_ofNodes (ids : List NodeId) : (ofNodes doc ids).InOrder doc :=
  orderly.inOrder_sort ids

theorem ofNodes_eq_iff : ofNodes doc ids = ofNodes doc ids' ↔ ∀ id, id ∈ ids ↔ id ∈ ids' := by
  rw [← orderly.sort_eq_sort_iff]
  exact NodeSet.mk.injEq .. |>.to_iff

theorem mem_union_iff : id ∈ (a.union doc b).nodes ↔ id ∈ a.nodes ∨ id ∈ b.nodes := by
  rw [union, mem_ofNodes_iff orderly, List.mem_append]

theorem inOrder_union (a b : NodeSet) : (a.union doc b).InOrder doc :=
  inOrder_ofNodes orderly _

theorem union_comm (a b : NodeSet) : a.union doc b = b.union doc a := by
  refine (inOrder_union orderly a b).eq_of_mem_iff (inOrder_union orderly b a) fun id => ?_
  rw [mem_union_iff orderly, mem_union_iff orderly]
  exact or_comm

theorem union_assoc (a b c : NodeSet) :
    (a.union doc b).union doc c = a.union doc (b.union doc c) := by
  refine (inOrder_union orderly _ _).eq_of_mem_iff (inOrder_union orderly _ _) fun id => ?_
  simp only [mem_union_iff orderly]
  exact or_assoc

theorem union_self (ha : a.InOrder doc) : a.union doc a = a := by
  refine (inOrder_union orderly a a).eq_of_mem_iff ha fun id => ?_
  rw [mem_union_iff orderly]
  exact or_self_iff

end Laws

/-- Sorting gives the distinct handles in strictly increasing order of their keys; node-sets
of handles are equal exactly when the handles are the same, and their union is commutative,
associative and idempotent. -/
theorem ofNodes_canonical (careful : doc.Careful) :
    (∀ ids, (doc.sort ids).Pairwise (fun x y => doc.orderKey x < doc.orderKey y) ∧
      ∀ id, id ∈ doc.sort ids ↔ id ∈ ids) ∧
    (∀ ids ids', ofNodes doc ids = ofNodes doc ids' ↔ ∀ id, id ∈ ids ↔ id ∈ ids') ∧
    ∀ ids ids' ids'',
      let a := ofNodes doc ids
      let b := ofNodes doc ids'
      let c := ofNodes doc ids''
      a.union doc b = b.union doc a ∧
        (a.union doc b).union doc c = a.union doc (b.union doc c) ∧ a.union doc a = a := by
  have orderly := careful.orderly
  refine ⟨fun ids => ⟨orderly.inOrder_sort ids, fun id => orderly.mem_sort_iff⟩,
    fun ids ids' => ofNodes_eq_iff orderly, ?_⟩
  intro ids ids' ids'' a b c
  exact ⟨union_comm orderly a b, union_assoc orderly a b c,
    union_self orderly (inOrder_ofNodes orderly ids)⟩

/-- Handles of an attribute, a child and their element, listed twice and backwards, are
sorted as the element, the attribute and the child. -/
theorem ofNodes_canonical_repeated :
    let commands : List Command := [.createText "t",
      .createElement (.plain "e") [(.plain "a", "v")], .edit ⟨2⟩ (.push ⟨1⟩)]
    let doc := Document.empty.run commands
    doc.Careful ∧ ofNodes doc [⟨1⟩, ⟨3⟩, ⟨2⟩, ⟨3⟩, ⟨1⟩] = ofNodes doc [⟨2⟩, ⟨3⟩, ⟨1⟩] ∧
      (doc.sort [⟨1⟩, ⟨3⟩, ⟨2⟩, ⟨3⟩, ⟨1⟩]).Pairwise
        fun x y => doc.orderKey x < doc.orderKey y := by
  intro commands doc
  have careful : doc.Careful := ⟨commands, by decide, rfl⟩
  refine ⟨careful, ?_, ((ofNodes_canonical careful).1 _).1⟩
  refine ((ofNodes_canonical careful).2.1 _ _).mpr fun id => ?_
  simp only [List.mem_cons, List.not_mem_nil]
  tauto

end XPathTree.NodeSet
