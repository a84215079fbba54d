import XPathTree.Document.Order
import XPathTree.Proofs.Document.Preorder

/-!
# Order keys

An order key is built from the node upwards; read from the front it is the key of the
parent with one marker and one position behind it (`orderKey_of_parent`). So all keys in
a subtree begin with the key of its top, and along a walk the keys increase
(`sorted_outline`): a key comes before what it is a beginning of, and where two keys part,
the marker decides between an attribute and a child, and the position between siblings.

Keys of different trees part at the slots of the roots.
-/

namespace XPathTree.Document

variable {doc : Document} {id parent x y : NodeId} {bound : Nat}

/-! ## Keys from the root -/

/-- The marker and the position of a node under its parent. -/
def placeUnder (doc : Document) (id parent : NodeId) : List Nat :=
  let (marker, list) := doc.siblings id parent
  [marker, (list.idxOf? id).getD 0]

theorem orderKeyAbove_of_none (h : doc.parent? id = none) (below : List Nat) :
    doc.orderKeyAbove bound id below = id.slot :: below := by
  cases bound with
  | zero => rfl
  | succ bound =>
      unfold orderKeyAbove
      rw [h]

theorem orderKeyAbove_of_parent (h : doc.parent? id = some parent) (below : List Nat) :
    doc.orderKeyAbove (bound + 1) id below =
      doc.orderKeyAbove bound parent (doc.placeUnder id parent ++ below) := by
  rw [orderKeyAbove, h]
  rfl

theorem orderKeyAbove_append (below rest : List Nat) :
    doc.orderKeyAbove bound id (below ++ rest) = doc.orderKeyAbove bound id below ++ rest := by
  induction bound generalizing id below with
  | zero => rfl
  | succ bound ih =>
      cases hp : doc.parent? id with
      | none => rw [orderKeyAbove_of_none hp, orderKeyAbove_of_none hp, List.cons_append]
      | some parent =>
          rw [orderKeyAbove_of_parent hp, orderKeyAbove_of_parent hp, ← List.append_assoc, ih]

/-- A key that is complete before its bound does not notice a larger one. -/
theorem orderKeyAbove_succ (h : (doc.climb bound id).length < bound) (below : List Nat) :
    doc.orderKeyAbove (bound + 1) id below = doc.orderKeyAbove bound id below := by
  induction bound, id, h using climb_induction generalizing below with
  | root bound id _ hp => rw [orderKeyAbove_of_none hp, orderKeyAbove_of_none hp]
  | child bound id parent _ _ hp ih =>
      rw [orderKeyAbove_of_parent hp, orderKeyAbove_of_parent hp, ih]

theorem orderKey_of_none (h : doc.parent? id = none) : doc.orderKey id = [id.slot] :=
  orderKeyAbove_of_none h []

/-- The key of a node is the key of its parent and the place under it. -/
theorem WellFormed.orderKey_of_parent (wf : doc.WellFormed) (h : doc.parent? id = some parent) :
    doc.orderKey id = doc.orderKey parent ++ doc.placeUnder id parent := by
  obtain ⟨bound, hsize, hlt⟩ := wf.exists_size_eq_succ h
  unfold orderKey
  rw [hsize, orderKeyAbove_of_parent h, orderKeyAbove_succ hlt, List.append_nil]
  exact orderKeyAbove_append [] (doc.placeUnder id parent)

/-- A key begins with the slot of the root. -/
theorem WellFormed.orderKey_eq_cons (wf : doc.WellFormed) (id : NodeId) :
    ∃ below, doc.orderKey id = (doc.treeRoot id).slot :: below := by
  induction id using wf.induction with
  | root id h =>
      rw [treeRoot_of_none h, orderKey_of_none h]
      exact ⟨[], rfl⟩
  | child id parent h ih =>
      obtain ⟨below, hbelow⟩ := ih
      rw [wf.treeRoot_of_parent h, wf.orderKey_of_parent h, hbelow]
      exact ⟨below ++ doc.placeUnder id parent, rfl⟩

/-- Nodes with one key are in one tree. -/
theorem WellFormed.treeRoot_eq_of_orderKey_eq (wf : doc.WellFormed)
    (h : doc.orderKey x = doc.orderKey y) : doc.treeRoot x = doc.treeRoot y := by
  obtain ⟨below, hbelow⟩ := wf.orderKey_eq_cons x
  obtain ⟨below', hbelow'⟩ := wf.orderKey_eq_cons y
  exact eq_of_slot_eq (List.cons.inj (hbelow.symm.trans (h.trans hbelow'))).1

/-! ## Comparing keys -/

/-- Keys that part at a marker or a position are in the order of these. -/
theorem lt_of_places {key a b : List Nat} {marker index marker' index' : Nat}
    (ha : key ++ [marker, index] <+: a) (hb : key ++ [marker', index'] <+: b)
    (h : marker < marker' ∨ marker = marker' ∧ index < index') : a < b := by
  obtain ⟨below, rfl⟩ := ha
  obtain ⟨below', rfl⟩ := hb
  rw [List.append_assoc, List.append_assoc]
  refine List.append_left_lt (List.cons_lt_cons_iff.mpr ?_)
  rcases h with h | ⟨rfl, h⟩
  · exact .inl h
  · exact .inr ⟨rfl, List.cons_lt_cons_iff.mpr (.inl h)⟩

/-- A key comes before all keys that continue it. -/
theorem lt_of_place {key a : List Nat} {marker index : Nat}
    (h : key ++ [marker, index] <+: a) : key < a := by
  obtain ⟨below, rfl⟩ := h
  rw [List.append_assoc]
  calc key = key ++ [] := (List.append_nil key).symm
    _ < key ++ ([marker, index] ++ below) := List.append_left_lt (List.nil_lt_cons _ _)

/-- Distinct siblings are in the order of their positions. -/
theorem pairwise_idxOf? {ids : List NodeId} (nodup : ids.Nodup) :
    ids.Pairwise fun a b => (ids.idxOf? a).getD 0 < (ids.idxOf? b).getD 0 := by
  refine List.pairwise_iff_getElem.mpr fun i j hi hj hlt => ?_
  rw [idxOf?_getElem nodup hi, idxOf?_getElem nodup hj]
  exact hlt

/-! ## Keys along a walk -/

section Walk

variable (wf : doc.WellFormed) (listed : doc.AttributesListed) (apart : doc.AttributesApart)
include wf

theorem AttributesApart.orderKey_of_mem_children (apart : doc.AttributesApart)
    (h : x ∈ doc.children id) :
    doc.orderKey x = doc.orderKey id ++ [1, ((doc.children id).idxOf? x).getD 0] := by
  rw [wf.orderKey_of_parent (wf.children_parent id x h)]
  unfold placeUnder siblings
  rw [if_neg (apart.not_child id x h)]

theorem AttributesApart.orderKey_of_mem_attributes (apart : doc.AttributesApart)
    (listed : doc.AttributesListed) (h : x ∈ doc.attributes id) :
    doc.orderKey x = doc.orderKey id ++ [0, ((doc.attributes id).idxOf? x).getD 0] := by
  rw [wf.orderKey_of_parent (apart.parent id x h)]
  unfold placeUnder siblings
  rw [if_pos (listed.type id x h)]

/-- The keys in a subtree begin with the key of its top. -/
theorem prefix_of_ancestorOrSelf (h : doc.AncestorOrSelf id x) :
    doc.orderKey id <+: doc.orderKey x := by
  induction h with
  | refl => exact List.prefix_rfl
  | tail _ hparent ih =>
      rw [wf.orderKey_of_parent hparent]
      exact ih.trans (List.prefix_append _ _)

include listed apart

/-- Along a walk the keys increase. -/
theorem sorted_outline (depth : Nat) (id : NodeId) :
    (doc.outline depth id).Pairwise fun x y => doc.orderKey x < doc.orderKey y := by
  induction depth generalizing id with
  | zero => exact .nil
  | succ depth ih =>
      have hattributes : ∀ x ∈ doc.attributes id,
          doc.orderKey id ++ [0, ((doc.attributes id).idxOf? x).getD 0] <+: doc.orderKey x := by
        intro x hx
        exact apart.orderKey_of_mem_attributes wf listed hx ▸ List.prefix_rfl
      have hbelow : ∀ child ∈ doc.children id, ∀ x ∈ doc.outline depth child,
          doc.orderKey id ++ [1, ((doc.children id).idxOf? child).getD 0] <+: doc.orderKey x := by
        intro child hchild x hx
        rw [← apart.orderKey_of_mem_children wf hchild]
        exact prefix_of_ancestorOrSelf wf (apart.ancestorOrSelf_of_mem_outline wf hx)
      -- the top and what is below; two attributes; two nodes below children; one of each
      refine List.pairwise_cons.mpr ⟨fun x hx => ?_, List.pairwise_append.mpr ⟨?_, ?_, ?_⟩⟩
      · rcases List.mem_append.mp hx with hx | hx
        · exact lt_of_place (hattributes x hx)
        · obtain ⟨child, hchild, hx⟩ := List.mem_flatMap.mp hx
          exact lt_of_place (hbelow child hchild x hx)
      · refine (pairwise_idxOf? (listed.nodup id)).imp_of_mem fun hx hy hlt => ?_
        exact lt_of_places (hattributes _ hx) (hattributes _ hy) (.inr ⟨rfl, hlt⟩)
      · refine List.pairwise_flatMap.mpr ⟨fun child _ => ih child, ?_⟩
        refine (pairwise_idxOf? (wf.children_nodup id)).imp_of_mem fun hc hd hlt x hx y hy => ?_
        exact lt_of_places (hbelow _ hc x hx) (hbelow _ hd y hy) (.inr ⟨rfl, hlt⟩)
      · intro x hx y hy
        obtain ⟨child, hchild, hy⟩ := List.mem_flatMap.mp hy
        exact lt_of_places (hattributes x hx) (hbelow child hchild y hy) (.inl Nat.zero_lt_one)

theorem mem_walk_treeRoot (hx : x ∈ doc) : x ∈ doc.walk (doc.treeRoot x) := by
  exact (apart.mem_walk_iff wf listed (wf.treeRoot_mem_iff.mpr hx)).mpr
    (wf.treeRoot_ancestorOrSelf x)

omit wf listed apart in
/-- Of two nodes in a list one comes before the other. -/
theorem pair_sublist_or {ids : List NodeId} (hx : x ∈ ids) (hy : y ∈ ids) (hne : x ≠ y) :
    [x, y].Sublist ids ∨ [y, x].Sublist ids := by
  obtain ⟨before, after, rfl⟩ := List.append_of_mem hx
  rcases List.mem_append.mp hy with hy | hy
  · right
    exact (List.singleton_sublist.mpr hy).append (List.singleton_sublist.mpr List.mem_cons_self)
  · left
    have hafter := (List.mem_cons.mp hy).resolve_left hne.symm
    exact ((List.singleton_sublist.mpr hafter).cons_cons x).trans
      (List.sublist_append_right before (x :: after))

/-- The order of the keys of two nodes of one tree is the order of the walk. -/
theorem orderKey_lt_iff_sublist (hx : x ∈ doc) (hy : y ∈ doc)
    (htree : doc.treeRoot x = doc.treeRoot y) :
    doc.orderKey x < doc.orderKey y ↔ [x, y].Sublist (doc.walk (doc.treeRoot x)) := by
  have hsorted := sorted_outline wf listed apart doc.size (doc.treeRoot x)
  have hlt : ∀ {a b}, [a, b].Sublist (doc.walk (doc.treeRoot x)) →
      doc.orderKey a < doc.orderKey b := List.pairwise_iff_forall_sublist.mp hsorted
  refine ⟨fun h => ?_, hlt⟩
  have hxwalk := mem_walk_treeRoot wf listed apart hx
  have hywalk := mem_walk_treeRoot wf listed apart hy
  rw [← htree] at hywalk
  have hne : x ≠ y := by
    rintro rfl
    exact List.lt_irrefl _ h
  refine (pair_sublist_or hxwalk hywalk hne).resolve_right fun hsublist => ?_
  exact List.lt_irrefl _ (List.lt_trans h (hlt hsublist))

/-- Order keys tell nodes apart. -/
theorem orderKey_inj (hx : x ∈ doc) (hy : y ∈ doc) (h : doc.orderKey x = doc.orderKey y) :
    x = y := by
  by_contra hne
  have htree := wf.treeRoot_eq_of_orderKey_eq h
  have hywalk := mem_walk_treeRoot wf listed apart hy
  rw [← htree] at hywalk
  rcases pair_sublist_or (mem_walk_treeRoot wf listed apart hx) hywalk hne with hpair | hpair
  · have hlt := (orderKey_lt_iff_sublist wf listed apart hx hy htree).mpr hpair
    rw [h] at hlt
    exact List.lt_irrefl _ hlt
  · rw [htree] at hpair
    have hlt := (orderKey_lt_iff_sublist wf listed apart hy hx htree.symm).mpr hpair
    rw [h] at hlt
    exact List.lt_irrefl _ hlt

/-- Order keys compare the roots first, and within a tree they follow the walk. -/
theorem orderKey_lt_iff (hx : x ∈ doc) (hy : y ∈ doc) :
    doc.orderKey x < doc.orderKey y ↔
      (doc.treeRoot x).slot < (doc.treeRoot y).slot ∨
        doc.treeRoot x = doc.treeRoot y ∧ [x, y].Sublist (doc.walk (doc.treeRoot x)) := by
  by_cases htree : doc.treeRoot x = doc.treeRoot y
  · rw [orderKey_lt_iff_sublist wf listed apart hx hy htree, htree]
    simp
  · have hslot : (doc.treeRoot x).slot ≠ (doc.treeRoot y).slot := fun h => htree (eq_of_slot_eq h)
    obtain ⟨below, hbelow⟩ := wf.orderKey_eq_cons x
    obtain ⟨below', hbelow'⟩ := wf.orderKey_eq_cons y
    rw [hbelow, hbelow', List.cons_lt_cons_iff]
    simp only [hslot, htree, false_and]

end Walk

/-- In every document that came about without handing an attribute to `setContent`, order
keys tell nodes apart, compare the roots first and follow the walk of each tree. -/
theorem orderKey_follows_walk {commands : List Command}
    (careful : ¬ empty.HandsAttributes commands) {x y : NodeId}
    (hx : x ∈ empty.run commands) (hy : y ∈ empty.run commands) :
    let doc := empty.run commands
    (doc.orderKey x = doc.orderKey y → x = y) ∧
      (doc.orderKey x < doc.orderKey y ↔
        (doc.treeRoot x).slot < (doc.treeRoot y).slot ∨
          doc.treeRoot x = doc.treeRoot y ∧ [x, y].Sublist (doc.walk (doc.treeRoot x))) := by
  intro doc
  have wf := wellFormed_empty.run commands
  have listed := attributesListed_empty.run wellFormed_empty commands
  have apart := (attributesApart_run_iff commands).mpr fun h =>
    careful (handsAttributes_of_admitsAttribute h)
  exact ⟨orderKey_inj wf listed apart hx hy, orderKey_lt_iff wf listed apart hx hy⟩

/-- An attribute comes before a child that was created earlier. -/
theorem orderKey_follows_walk_attribute :
    let commands : List Command := [.createText "t",
      .createElement (.plain "e") [(.plain "a", "v")], .edit ⟨2⟩ (.push ⟨1⟩)]
    let doc := empty.run commands
    ¬ empty.HandsAttributes commands ∧ (⟨3⟩ : NodeId) ∈ doc ∧ (⟨1⟩ : NodeId) ∈ doc ∧
      doc.orderKey ⟨3⟩ < doc.orderKey ⟨1⟩ := by
  refine ⟨by decide, by decide, by decide, ?_⟩
  exact (orderKey_follows_walk (by decide) (by decide) (by decide)).2.mpr
    (.inr ⟨by decide, by decide⟩)

end XPathTree.Document
