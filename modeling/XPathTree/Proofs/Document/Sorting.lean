import XPathTree.Proofs.Document.DocumentOrder

/-!
# Sorting into document order

`sort` computes the order keys of all its handles over one shared record of positions. A
record is faithful to some nodes when each entry for one of them is its position in the list
that it is in under its parent. Where these nodes have their places (`Placed`), recording a
list of siblings keeps a record faithful: those of them in the list are siblings under the
same parent, and stand in the list once. So their keys from a record are the keys without
it (`Placed.recordedKeys_eq`), whatever was recorded before.

In an orderly document all nodes have their places, and equal keys belong to equal handles.
Hence repetitions are adjacent after sorting, and what is left of them is in order
(`Orderly.inOrder_sort`).
-/

namespace XPathTree

open Document

/-! ## Recording a list -/

namespace Positions

variable {positions : Positions} {id : NodeId} {index : Nat} {list : List NodeId}

@[simp] theorem size_insert (positions : Positions) (id : NodeId) (index : Nat) :
    (positions.insert id index).bySlot.size = positions.bySlot.size := by
  simp [insert]

theorem size_insertEach (entries : List (NodeId × Nat)) (positions : Positions) :
    (entries.foldl (fun positions entry => positions.insert entry.1 entry.2)
      positions).bySlot.size = positions.bySlot.size := by
  induction entries generalizing positions with
  | nil => rfl
  | cons entry rest ih => exact (ih _).trans (size_insert ..)

/-- What is found afterwards was found before or is one of the entries. -/
theorem find?_insertEach {entries : List (NodeId × Nat)}
    (h : (entries.foldl (fun positions entry => positions.insert entry.1 entry.2)
      positions).find? id = some index) :
    positions.find? id = some index ∨ (id, index) ∈ entries := by
  induction entries generalizing positions with
  | nil => exact .inl h
  | cons entry rest ih =>
      rcases ih h with h | h
      · rw [find?_insert] at h
        split at h
        · next heq =>
            right
            rw [← Option.some.inj h, ← heq.1]
            exact List.mem_cons_self
        · exact .inl h
      · exact .inr (List.mem_cons_of_mem _ h)

/-- Everything that was found before, and every node of the entries, is found. -/
theorem isSome_find?_insertEach {entries : List (NodeId × Nat)}
    (bound : id.slot < positions.bySlot.size)
    (h : (positions.find? id).isSome ∨ id ∈ entries.map (·.1)) :
    ((entries.foldl (fun positions entry => positions.insert entry.1 entry.2)
      positions).find? id).isSome := by
  induction entries generalizing positions with
  | nil => exact h.resolve_right List.not_mem_nil
  | cons entry rest ih =>
      refine ih (by rwa [size_insert]) ?_
      rw [find?_insert]
      by_cases heq : entry.1 = id
      · rw [if_pos ⟨heq, bound⟩]
        exact .inl rfl
      · rw [if_neg fun hand => heq hand.1]
        refine h.imp_right fun hmem => ?_
        exact (List.mem_cons.mp hmem).resolve_left (Ne.symm heq)

@[simp] theorem size_insertAll (positions : Positions) (list : List NodeId) :
    (positions.insertAll list).bySlot.size = positions.bySlot.size :=
  size_insertEach ..

theorem find?_insertAll (h : (positions.insertAll list).find? id = some index) :
    positions.find? id = some index ∨ list[index]? = some id :=
  (find?_insertEach h).imp_right List.mem_zipIdx_iff_getElem?.mp

theorem isSome_find?_insertAll (bound : id.slot < positions.bySlot.size) (h : id ∈ list) :
    ((positions.insertAll list).find? id).isSome := by
  refine isSome_find?_insertEach bound (.inr ?_)
  rwa [List.zipIdx_map_fst]

theorem find?_blank (size : Nat) (id : NodeId) : (blank size).find? id = none := by
  unfold find? blank
  rw [Array.getElem?_replicate]
  split <;> rfl

/-! ## Faithful records -/

/-- Each position that is recorded of one of the nodes is the one in the list that the node is in
under its parent. -/
structure Faithful (positions : Positions) (doc : Document) (nodes : NodeId → Prop) : Prop where
  size : positions.bySlot.size = doc.size
  agrees : ∀ id index, nodes id → positions.find? id = some index →
    ∃ parent, doc.parent? id = some parent ∧ (doc.siblings id parent).2.idxOf? id = some index

theorem faithful_blank (doc : Document) (nodes : NodeId → Prop) :
    (blank doc.size).Faithful doc nodes := by
  refine ⟨Array.size_replicate, fun id index _ h => ?_⟩
  rw [find?_blank] at h
  cases h

end Positions

namespace Document

variable {doc : Document} {id other parent : NodeId} {ids ids' : List NodeId}
variable {positions : Positions}

/-! ## Places -/

/-- Each of the nodes has one place among its siblings, and so has every node above it. -/
structure Placed (doc : Document) (nodes : NodeId → Prop) : Prop where
  above : ∀ id parent, nodes id → doc.parent? id = some parent → nodes parent
  mem : ∀ id parent, nodes id → doc.parent? id = some parent → id ∈ (doc.siblings id parent).2
  nodup : ∀ id parent, nodes id → (doc.siblings id parent).2.Nodup
  /-- Siblings have the same parent and the same siblings. -/
  siblings : ∀ id parent, nodes id → ∀ other ∈ (doc.siblings id parent).2, nodes other →
    doc.parent? other = some parent ∧ doc.siblings other parent = doc.siblings id parent

/-- In an orderly document all nodes have their places. -/
theorem Orderly.placed (orderly : doc.Orderly) : doc.Placed fun _ => True where
  above _ _ _ _ := trivial
  mem id parent _ h := by
    unfold Document.siblings
    split
    · next hattribute => exact orderly.listed.parent id parent hattribute h
    · next hattribute => exact orderly.wellFormed.parent_children id parent h hattribute
  nodup id parent _ := by
    unfold Document.siblings
    split
    · exact orderly.listed.nodup parent
    · exact orderly.wellFormed.children_nodup parent
  siblings id parent _ other h _ := by
    unfold Document.siblings at h ⊢
    split at h
    · next hattribute =>
        rw [if_pos (orderly.listed.type parent other h), if_pos hattribute]
        exact ⟨orderly.apart.parent parent other h, rfl⟩
    · next hattribute =>
        rw [if_neg (orderly.apart.not_child parent other h), if_neg hattribute]
        exact ⟨orderly.wellFormed.children_parent parent other h, rfl⟩

/-! ## Keys from a record -/

/-- The record that is consulted for a node: its siblings are recorded if the node is not. -/
def consulted (doc : Document) (id parent : NodeId) (positions : Positions) : Positions :=
  if (positions.find? id).isSome then positions
  else positions.insertAll (doc.siblings id parent).2

theorem recordedKeyAbove_of_none (h : doc.parent? id = none) (bound : Nat) (below : List Nat)
    (positions : Positions) :
    doc.recordedKeyAbove bound id below positions = (id.slot :: below, positions) := by
  cases bound with
  | zero => rfl
  | succ bound =>
      unfold recordedKeyAbove
      rw [h]

theorem recordedKeyAbove_of_parent (h : doc.parent? id = some parent) (bound : Nat)
    (below : List Nat) (positions : Positions) :
    doc.recordedKeyAbove (bound + 1) id below positions =
      doc.recordedKeyAbove bound parent
        ((doc.siblings id parent).1 ::
          ((doc.consulted id parent positions).find? id).getD 0 :: below)
        (doc.consulted id parent positions) := by
  rw [recordedKeyAbove, h]
  rfl

/-- Recording the siblings of a node records the node. -/
theorem isSome_find?_consulted (size : positions.bySlot.size = doc.size)
    (h : doc.parent? id = some parent) (hmem : id ∈ (doc.siblings id parent).2) :
    ((doc.consulted id parent positions).find? id).isSome := by
  unfold consulted
  split
  · assumption
  · refine Positions.isSome_find?_insertAll ?_ hmem
    rw [size]
    exact mem_of_parent? h

section Recorded

variable {nodes : NodeId → Prop} (placed : doc.Placed nodes)
include placed

/-- Recording the siblings of one of the nodes keeps a record faithful. -/
theorem Placed.faithful_insertAll (hid : nodes id) (faithful : positions.Faithful doc nodes) :
    (positions.insertAll (doc.siblings id parent).2).Faithful doc nodes := by
  refine ⟨by rw [Positions.size_insertAll, faithful.size], fun sibling index hnode h => ?_⟩
  rcases Positions.find?_insertAll h with h | h
  · exact faithful.agrees sibling index hnode h
  · obtain ⟨hlt, rfl⟩ := List.getElem?_eq_some_iff.mp h
    obtain ⟨hparent, hsiblings⟩ :=
      placed.siblings id parent hid _ (List.getElem_mem hlt) hnode
    refine ⟨parent, hparent, ?_⟩
    rw [hsiblings]
    exact idxOf?_getElem (placed.nodup id parent hid) hlt

theorem Placed.faithful_consulted (hid : nodes id) (faithful : positions.Faithful doc nodes) :
    (doc.consulted id parent positions).Faithful doc nodes := by
  unfold consulted
  split
  · exact faithful
  · exact placed.faithful_insertAll hid faithful

/-- The record that is consulted for a node has its position. -/
theorem Placed.find?_consulted (hid : nodes id) (h : doc.parent? id = some parent)
    (faithful : positions.Faithful doc nodes) :
    (doc.consulted id parent positions).find? id = (doc.siblings id parent).2.idxOf? id := by
  obtain ⟨index, hindex⟩ := Option.isSome_iff_exists.mp
    (isSome_find?_consulted faithful.size h (placed.mem id parent hid h))
  obtain ⟨parent', hparent', hidx⟩ :=
    (placed.faithful_consulted hid faithful).agrees id index hid hindex
  rw [h] at hparent'
  obtain rfl := Option.some.inj hparent'
  rw [hindex, hidx]

/-- A key from a faithful record is the key, and the record stays faithful. -/
theorem Placed.recordedKeyAbove_eq (bound : Nat) (below : List Nat) (hid : nodes id)
    (faithful : positions.Faithful doc nodes) :
    ∃ recorded : Positions, recorded.Faithful doc nodes ∧
      doc.recordedKeyAbove bound id below positions =
        (doc.orderKeyAbove bound id below, recorded) := by
  induction bound generalizing id below positions with
  | zero => exact ⟨positions, faithful, rfl⟩
  | succ bound ih =>
      cases h : doc.parent? id with
      | none =>
          rw [recordedKeyAbove_of_none h, orderKeyAbove_of_none h]
          exact ⟨positions, faithful, rfl⟩
      | some parent =>
          rw [recordedKeyAbove_of_parent h, orderKeyAbove_of_parent h,
            placed.find?_consulted hid h faithful]
          exact ih _ (placed.above id parent hid h) (placed.faithful_consulted hid faithful)

/-- A shared record changes none of the keys. -/
theorem Placed.recordedKeys_eq (hids : ∀ id ∈ ids, nodes id)
    (faithful : positions.Faithful doc nodes) :
    doc.recordedKeys ids positions = ids.map fun id => (doc.orderKey id, id) := by
  induction ids generalizing positions with
  | nil => rfl
  | cons id rest ih =>
      rw [List.forall_mem_cons] at hids
      obtain ⟨recorded, hrecorded, hkey⟩ := placed.recordedKeyAbove_eq doc.size [] hids.1 faithful
      unfold recordedKeys
      rw [hkey, List.map_cons]
      exact congrArg _ (ih hids.2 hrecorded)

end Recorded

/-! ## Sorting keyed handles -/

theorem compare_eq_lt_iff {a b : List Nat} : compare a b = .lt ↔ a < b := by
  induction a generalizing b with
  | nil => cases b <;> simp
  | cons x a ih =>
      cases b with
      | nil => simp
      | cons y b =>
          rw [List.compare_cons_cons, Ordering.then_eq_lt, ih, Nat.compare_eq_lt,
            Nat.compare_eq_eq, List.cons_lt_cons_iff]

/-- Keyed handles compared by key, then by slot. -/
def keyedCompare : List Nat × NodeId → List Nat × NodeId → Ordering :=
  compareLex (compareOn (·.1)) (compareOn (·.2.slot))

instance : Std.TransCmp keyedCompare :=
  inferInstanceAs (Std.TransCmp (compareLex (compareOn Prod.fst)
    (compareOn fun entry : List Nat × NodeId => entry.2.slot)))

theorem keyedLe_eq (a b : List Nat × NodeId) : keyedLe a b = (keyedCompare a b).isLE := rfl

theorem keyedLe_trans (a b c : List Nat × NodeId) (hab : keyedLe a b = true)
    (hbc : keyedLe b c = true) : keyedLe a c = true := by
  rw [keyedLe_eq] at *
  exact Std.TransCmp.isLE_trans hab hbc

theorem keyedLe_total (a b : List Nat × NodeId) : (keyedLe a b || keyedLe b a) = true := by
  rw [keyedLe_eq, keyedLe_eq, ← Std.OrientedCmp.isGE_eq_isLE (a := a)]
  cases keyedCompare a b <;> rfl

theorem keyedLe_of_precedes (h : doc.Precedes id other) :
    keyedLe (doc.orderKey id, id) (doc.orderKey other, other) = true := by
  have hlt : compare (doc.orderKey id) (doc.orderKey other) = .lt := compare_eq_lt_iff.mpr h
  unfold keyedLe
  rw [hlt]
  rfl

theorem Orderly.eq_or_precedes_of_keyedLe (orderly : doc.Orderly)
    (h : keyedLe (doc.orderKey id, id) (doc.orderKey other, other) = true) :
    id = other ∨ doc.Precedes id other := by
  unfold keyedLe at h
  cases hcompare : compare (doc.orderKey id) (doc.orderKey other) with
  | lt => exact .inr (compare_eq_lt_iff.mp hcompare)
  | eq =>
      exact .inl (orderly.eq_of_orderKey_eq (Std.LawfulEqOrd.eq_of_compare hcompare))
  | gt =>
      rw [hcompare] at h
      cases h

/-! ## Dropping repetitions -/

theorem mem_dropRepeats_iff : id ∈ dropRepeats ids ↔ id ∈ ids := by
  fun_induction dropRepeats ids with
  | case1 => rfl
  | case2 => rfl
  | case3 a rest ih => simp [ih]
  | case4 a b rest hne ih => rw [List.mem_cons, ih, List.mem_cons (b := a)]

theorem dropRepeats_eq_self (nodup : ids.Nodup) : dropRepeats ids = ids := by
  fun_induction dropRepeats ids with
  | case1 => rfl
  | case2 => rfl
  | case3 a rest ih => exact absurd List.mem_cons_self (List.nodup_cons.mp nodup).1
  | case4 a b rest hne ih => rw [ih nodup.of_cons]

/-- Where equal handles are adjacent, dropping repetitions leaves each of them once. -/
theorem inOrder_dropRepeats (h : ids.Pairwise fun x y => x = y ∨ doc.Precedes x y) :
    doc.InOrder (dropRepeats ids) := by
  fun_induction dropRepeats ids with
  | case1 => exact .nil
  | case2 a => exact .singleton a
  | case3 a rest ih => exact ih h.of_cons
  | case4 a b rest hne ih =>
      have hab := (List.rel_of_pairwise_cons h List.mem_cons_self).resolve_left hne
      refine List.pairwise_cons.mpr ⟨fun x hx => ?_, ih h.of_cons⟩
      rcases List.mem_cons.mp (mem_dropRepeats_iff.mp hx) with rfl | hx
      · exact hab
      · rcases List.rel_of_pairwise_cons h.of_cons hx with rfl | hbx
        · exact hab
        · exact hab.trans hbx

/-! ## The sorted list -/

theorem Placed.sort_eq {nodes : NodeId → Prop} (placed : doc.Placed nodes)
    (hids : ∀ id ∈ ids, nodes id) (h : 2 ≤ ids.length) :
    doc.sort ids = dropRepeats
      (((ids.map fun id => (doc.orderKey id, id)).mergeSort keyedLe).map (·.2)) := by
  unfold sort
  rw [if_neg (by omega), placed.recordedKeys_eq hids (Positions.faithful_blank doc nodes)]

/-- Sorting changes nothing about a list in order. -/
theorem Placed.sort_eq_self {nodes : NodeId → Prop} (placed : doc.Placed nodes)
    (hids : ∀ id ∈ ids, nodes id) (inOrder : doc.InOrder ids) : doc.sort ids = ids := by
  by_cases h : ids.length < 2
  · rw [sort, if_pos h]
  · have hsorted : (ids.map fun id => (doc.orderKey id, id)).Pairwise (keyedLe · ·) :=
      List.pairwise_map.mpr (inOrder.imp keyedLe_of_precedes)
    rw [placed.sort_eq hids (by omega), List.mergeSort_of_pairwise hsorted, List.map_map]
    exact (congrArg dropRepeats (List.map_id ids)).trans (dropRepeats_eq_self inOrder.nodup)

section Sorted

variable (orderly : doc.Orderly)
include orderly

theorem Orderly.sort_eq (h : 2 ≤ ids.length) :
    doc.sort ids = dropRepeats
      (((ids.map fun id => (doc.orderKey id, id)).mergeSort keyedLe).map (·.2)) :=
  orderly.placed.sort_eq (fun _ _ => trivial) h

theorem Orderly.mem_sort_iff : id ∈ doc.sort ids ↔ id ∈ ids := by
  by_cases h : ids.length < 2
  · unfold sort
    rw [if_pos h]
  · rw [orderly.sort_eq (by omega), mem_dropRepeats_iff]
    simp

/-- Sorting brings handles in order, each once. -/
theorem Orderly.inOrder_sort (ids : List NodeId) : doc.InOrder (doc.sort ids) := by
  match ids with
  | [] => exact .nil
  | [id] => exact .singleton id
  | x :: y :: rest =>
      rw [orderly.sort_eq (by simp)]
      refine inOrder_dropRepeats (List.pairwise_map.mpr ?_)
      have hsorted := List.pairwise_mergeSort keyedLe_trans keyedLe_total
        ((x :: y :: rest).map fun id => (doc.orderKey id, id))
      refine hsorted.imp_of_mem fun ha hb hle => ?_
      obtain ⟨a, _, rfl⟩ := List.mem_map.mp (List.mem_mergeSort.mp ha)
      obtain ⟨b, _, rfl⟩ := List.mem_map.mp (List.mem_mergeSort.mp hb)
      exact orderly.eq_or_precedes_of_keyedLe hle

/-- Sorting gives equal lists for handles in any order and with any repetitions. -/
theorem Orderly.sort_eq_sort_iff :
    doc.sort ids = doc.sort ids' ↔ ∀ id, id ∈ ids ↔ id ∈ ids' := by
  constructor
  · intro h id
    rw [← orderly.mem_sort_iff, h, orderly.mem_sort_iff]
  · intro h
    refine (orderly.inOrder_sort ids).eq_of_mem_iff (orderly.inOrder_sort ids') fun id => ?_
    rw [orderly.mem_sort_iff, orderly.mem_sort_iff]
    exact h id

theorem Orderly.sort_eq_self (inOrder : doc.InOrder ids) : doc.sort ids = ids :=
  orderly.placed.sort_eq_self (fun _ _ => trivial) inOrder

end Sorted

end Document

end XPathTree
