import XPathTree.Proofs.Document.Attribute

/-!
# The walk of a tree

`walk` lists a node, then its attributes, then the subtrees of its children. The
recursion is on a depth. No branch of a well-formed document is deeper than its number
of slots, so that the depth drops out: `walk_eq` is the recursion without it, and
`mem_walk_iff` says that the walk meets a node and everything below it.
-/

namespace XPathTree.Document

/-- The nodes of a subtree, down to a depth. -/
def outline (doc : Document) : (depth : Nat) → NodeId → List NodeId
  | 0, _ => []
  | depth + 1, id =>
    id :: (doc.attributes id ++ (doc.children id).flatMap (doc.outline depth))

/-- A node, then its attributes, then the subtrees of its children. -/
def walk (doc : Document) (id : NodeId) : List NodeId := doc.outline doc.size id

variable {doc : Document} {id x : NodeId} {depth : Nat}

theorem mem_outline_succ_iff :
    x ∈ doc.outline (depth + 1) id ↔
      x = id ∨ x ∈ doc.attributes id ∨ ∃ child ∈ doc.children id, x ∈ doc.outline depth child := by
  show x ∈ id :: (doc.attributes id ++ (doc.children id).flatMap (doc.outline depth)) ↔ _
  rw [List.mem_cons, List.mem_append, List.mem_flatMap]

/-! ## The depth suffices -/

/-- What is left of the depth at a node exceeds what can hang below it. -/
theorem WellFormed.outline_succ (wf : doc.WellFormed) (hid : id ∈ doc)
    (h : doc.size ≤ (doc.ancestors id).length + depth) :
    doc.outline (depth + 1) id = doc.outline depth id := by
  induction depth generalizing id with
  | zero =>
      have hlt := wf.length_ancestors_lt hid
      omega
  | succ depth ih =>
      have hchildren : (doc.children id).flatMap (doc.outline (depth + 1)) =
          (doc.children id).flatMap (doc.outline depth) := by
        refine List.flatMap_congr fun child hchild => ih (wf.children_mem id child hchild) ?_
        rw [wf.ancestors_of_parent (wf.children_parent id child hchild), List.length_cons]
        omega
      show id :: (doc.attributes id ++ (doc.children id).flatMap (doc.outline (depth + 1))) = _
      rw [hchildren]
      rfl

/-- The recursion of the walk. -/
theorem WellFormed.walk_eq (wf : doc.WellFormed) (hid : id ∈ doc) :
    doc.walk id = id :: (doc.attributes id ++ (doc.children id).flatMap doc.walk) := by
  have hpos : 0 < doc.size := Nat.zero_lt_of_lt hid
  obtain ⟨depth, hdepth⟩ := Nat.exists_eq_add_one.mpr hpos
  have hchildren : (doc.children id).flatMap doc.walk =
      (doc.children id).flatMap (doc.outline depth) := by
    refine List.flatMap_congr fun child hchild => ?_
    unfold walk
    rw [hdepth]
    refine wf.outline_succ (wf.children_mem id child hchild) ?_
    rw [wf.ancestors_of_parent (wf.children_parent id child hchild), List.length_cons]
    omega
  rw [hchildren]
  unfold walk
  rw [hdepth]
  rfl

/-! ## The nodes of a walk -/

theorem AttributesApart.ancestorOrSelf_of_mem_outline (apart : doc.AttributesApart)
    (wf : doc.WellFormed) (h : x ∈ doc.outline depth id) : doc.AncestorOrSelf id x := by
  induction depth generalizing id with
  | zero => cases h
  | succ depth ih =>
      rcases mem_outline_succ_iff.mp h with rfl | h | ⟨child, hchild, h⟩
      · exact .refl
      · exact .single (apart.parent id x h)
      · exact .head (wf.children_parent id child hchild) (ih h)

/-- Only branches have nodes below them. -/
theorem WellFormed.eq_of_ancestorOrSelf (wf : doc.WellFormed) (leaf : ¬ doc.IsBranch id)
    (h : doc.AncestorOrSelf id x) : x = id := by
  rcases h.cases_head with heq | ⟨child, hparent, _⟩
  · exact heq.symm
  · exact absurd (wf.parent_branch child id hparent) leaf

/-- A walk meets the node where it starts and all nodes below. -/
theorem AttributesApart.mem_walk_iff (apart : doc.AttributesApart) (wf : doc.WellFormed)
    (listed : doc.AttributesListed) (hid : id ∈ doc) :
    x ∈ doc.walk id ↔ doc.AncestorOrSelf id x := by
  refine ⟨apart.ancestorOrSelf_of_mem_outline wf, fun h => ?_⟩
  -- downwards: the first step leads to an attribute or to a child, whose walk is a part
  induction h using Relation.ReflTransGen.head_induction_on with
  | refl =>
      rw [wf.walk_eq hid]
      exact List.mem_cons_self
  | @head upper lower hparent hbelow ih =>
      have hlower := mem_of_parent? hparent
      rw [wf.walk_eq hid]
      refine List.mem_cons_of_mem _ (List.mem_append.mpr ?_)
      by_cases hattribute : doc.nodeType? lower = some .attribute
      · have hleaf : ¬ doc.IsBranch lower := by
          rintro (hbranch | hbranch) <;> rw [hattribute] at hbranch <;> cases hbranch
        left
        rw [wf.eq_of_ancestorOrSelf hleaf hbelow]
        exact listed.parent lower upper hattribute hparent
      · right
        have hchild := wf.parent_children lower upper hparent hattribute
        exact List.mem_flatMap.mpr ⟨lower, hchild, ih hlower⟩

end XPathTree.Document
