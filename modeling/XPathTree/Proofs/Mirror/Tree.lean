import Mathlib.Data.Set.Function
import XPathTree.Proofs.Axis.Direction
import XPathTree.Proofs.Document.Sorting
import XPathTree.Proofs.Mirror.Evaluation

/-!
# Trees of one shape

Slots are handed out in the order in which nodes are created, so that the same tree can be
built in many ways, and with other trees around it. `SameTree` says that a renaming of handles
maps the tree of one node to the tree of another, with payloads and with the order of children
and attributes.

Parents, ancestors and document order are all determined by the lists of children and
attributes, and so they are kept. With document order, a list of handles on an axis is determined
by its members, and so is a sorted list (`InOrder.eq_of_mem_iff`). Hence the documents mirror
each other in this tree (`SameTree.mirrors`), and an evaluation at a node gives the same
in both, up to the names of handles (`evaluate_same_tree`).
-/

namespace XPathTree

namespace Document

/-- The nodes in the tree of a node. -/
def treeOf (doc : Document) (id : NodeId) : Set NodeId :=
  {x | x ∈ doc ∧ doc.treeRoot x = doc.treeRoot id}

/-- The renaming maps the tree of one node to the tree of another. -/
structure SameTree (doc doc' : Document) (rename : NodeId → NodeId) (node node' : NodeId) :
    Prop where
  start : rename node = node'
  bijective : Set.BijOn rename (doc.treeOf node) (doc'.treeOf node')
  payload : ∀ x ∈ doc.treeOf node, (doc.kind? x).map (·.bare) = (doc'.kind? (rename x)).map (·.bare)
  children : ∀ x ∈ doc.treeOf node, doc'.children (rename x) = (doc.children x).map rename
  attributes : ∀ x ∈ doc.treeOf node, doc'.attributes (rename x) = (doc.attributes x).map rename

variable {doc doc' : Document} {rename : NodeId → NodeId} {node node' x y parent : NodeId}
variable {xs : List NodeId}

/-! ## Inside a tree -/

theorem mem_treeOf_iff : x ∈ doc.treeOf node ↔ x ∈ doc ∧ doc.treeRoot x = doc.treeRoot node :=
  Iff.rfl

section TreeOf

variable (orderly : doc.Orderly)
include orderly

theorem Orderly.mem_treeOf_of_parent (h : doc.parent? x = some parent) :
    x ∈ doc.treeOf node ↔ parent ∈ doc.treeOf node := by
  have wf := orderly.wellFormed
  rw [mem_treeOf_iff, mem_treeOf_iff, wf.treeRoot_of_parent h]
  exact and_congr_left' (iff_of_true (mem_of_parent? h) (wf.parent_mem x parent h))

theorem Orderly.parent?_eq_iff :
    doc.parent? x = some parent ↔ x ∈ doc.children parent ∨ x ∈ doc.attributes parent := by
  rw [orderly.mem_children_iff, orderly.mem_attributes_iff, ← and_or_left]
  exact (and_iff_left (Decidable.em _)).symm

theorem Orderly.children_subset (hx : x ∈ doc.treeOf node) :
    ∀ y ∈ doc.children x, y ∈ doc.treeOf node := fun _ hchild =>
  (orderly.mem_treeOf_of_parent (orderly.parent?_eq_iff.mpr (.inl hchild))).mpr hx

theorem Orderly.attributes_subset (hx : x ∈ doc.treeOf node) :
    ∀ y ∈ doc.attributes x, y ∈ doc.treeOf node := fun _ hattribute =>
  (orderly.mem_treeOf_of_parent (orderly.parent?_eq_iff.mpr (.inr hattribute))).mpr hx

theorem Orderly.axis_subset (hx : x ∈ doc.treeOf node) (axis : Axis) :
    ∀ y ∈ doc.axis axis x, y ∈ doc.treeOf node := by
  intro y hy
  have htree := orderly.treeRoot_of_mem_axis hy
  have wf := orderly.wellFormed
  refine ⟨?_, htree.trans hx.2⟩
  rw [← wf.treeRoot_mem_iff, htree, wf.treeRoot_mem_iff]
  exact hx.1

end TreeOf

/-! ## What a renaming keeps -/

/-- Lists of handles and of their new names. -/
theorem forall₂_rename_iff {tree : Set NodeId} {ys : List NodeId} :
    List.Forall₂ (fun x y => x ∈ tree ∧ rename x = y) xs ys ↔
      (∀ x ∈ xs, x ∈ tree) ∧ xs.map rename = ys := by
  rw [List.forall₂_and_left, ← List.forall₂_map_left_iff (R := Eq), List.forall₂_eq_eq_eq]

namespace SameTree

variable (same : doc.SameTree doc' rename node node')
include same

theorem rename_mem (hx : x ∈ doc.treeOf node) : rename x ∈ doc'.treeOf node' :=
  same.bijective.mapsTo hx

theorem rename_eq_iff (hx : x ∈ doc.treeOf node) (hy : y ∈ doc.treeOf node) :
    rename x = rename y ↔ x = y :=
  same.bijective.injOn.eq_iff hx hy

theorem mem_map_rename_iff (hxs : ∀ y ∈ xs, y ∈ doc.treeOf node) (hx : x ∈ doc.treeOf node) :
    rename x ∈ xs.map rename ↔ x ∈ xs := by
  refine ⟨fun h => ?_, List.mem_map_of_mem⟩
  obtain ⟨y, hy, heq⟩ := List.mem_map.mp h
  rwa [← (same.rename_eq_iff (hxs y hy) hx).mp heq]

theorem isContent_iff (hx : x ∈ doc.treeOf node) :
    doc'.IsContent (rename x) ↔ doc.IsContent x := by
  unfold IsContent nodeType?
  rcases NodeKind.cases_of_bare_eq (same.payload x hx) with heq | ⟨name, _, _, h, h'⟩
  · rw [heq]
  · rw [h, h']
    rfl

variable (orderly : doc.Orderly) (orderly' : doc'.Orderly)

include orderly in
theorem outline_eq (depth : Nat) (hx : x ∈ doc.treeOf node) :
    doc'.outline depth (rename x) = (doc.outline depth x).map rename := by
  induction depth generalizing x with
  | zero => rfl
  | succ depth ih =>
      have hchildren : (doc'.children (rename x)).flatMap (doc'.outline depth) =
          ((doc.children x).flatMap (doc.outline depth)).map rename := by
        rw [same.children x hx, List.flatMap_map, List.map_flatMap]
        exact List.flatMap_congr fun child hchild => ih (orderly.children_subset hx child hchild)
      show rename x :: (doc'.attributes (rename x) ++ _) = _
      rw [same.attributes x hx, hchildren, ← List.map_append]
      rfl

include orderly orderly'

theorem parent?_rename_iff (hx : x ∈ doc.treeOf node) (hy : y ∈ doc.treeOf node) :
    doc'.parent? (rename x) = some (rename y) ↔ doc.parent? x = some y := by
  rw [orderly.parent?_eq_iff, orderly'.parent?_eq_iff, same.children y hy, same.attributes y hy,
    same.mem_map_rename_iff (orderly.children_subset hy) hx,
    same.mem_map_rename_iff (orderly.attributes_subset hy) hx]

theorem parent?_rename (hx : x ∈ doc.treeOf node) :
    doc'.parent? (rename x) = (doc.parent? x).map rename := by
  refine Option.ext fun parent' => ?_
  rw [Option.map_eq_some_iff]
  constructor
  · intro h
    -- the parent is in the second tree, so that it is the new name of a node of the first
    have hparent' := (orderly'.mem_treeOf_of_parent h).mp (same.rename_mem hx)
    obtain ⟨parent, hparent, rfl⟩ := same.bijective.surjOn hparent'
    exact ⟨parent, (same.parent?_rename_iff orderly orderly' hx hparent).mp h, rfl⟩
  · rintro ⟨parent, h, rfl⟩
    have hparent := (orderly.mem_treeOf_of_parent h).mp hx
    exact (same.parent?_rename_iff orderly orderly' hx hparent).mpr h

theorem ancestors_rename (hx : x ∈ doc.treeOf node) :
    doc'.ancestors (rename x) = (doc.ancestors x).map rename := by
  have wf := orderly.wellFormed
  induction x using wf.induction with
  | root x h =>
      have h' := same.parent?_rename orderly orderly' hx
      rw [h] at h'
      rw [ancestors_of_none h, ancestors_of_none h']
      rfl
  | child x parent h ih =>
      have hparent := (orderly.mem_treeOf_of_parent h).mp hx
      have h' := (same.parent?_rename_iff orderly orderly' hx hparent).mpr h
      rw [wf.ancestors_of_parent h, orderly'.wellFormed.ancestors_of_parent h', ih hparent]
      rfl

theorem ancestor_rename_iff (hx : x ∈ doc.treeOf node) (hy : y ∈ doc.treeOf node) :
    doc'.Ancestor (rename x) (rename y) ↔ doc.Ancestor x y := by
  have hancestors : ∀ z ∈ doc.ancestors y, z ∈ doc.treeOf node := fun z hz =>
    orderly.axis_subset hy .ancestor z (List.mem_reverse.mpr hz)
  rw [← orderly'.wellFormed.mem_ancestors_iff, ← orderly.wellFormed.mem_ancestors_iff,
    same.ancestors_rename orderly orderly' hy, same.mem_map_rename_iff hancestors hx]

/-- Document order is the order of the walk from the root, which is renamed node by node. -/
theorem precedes_rename (hx : x ∈ doc.treeOf node) (hy : y ∈ doc.treeOf node)
    (h : doc.Precedes x y) : doc'.Precedes (rename x) (rename y) := by
  have wf := orderly.wellFormed
  have hroot : doc.treeRoot x ∈ doc.treeOf node :=
    ⟨wf.treeRoot_mem_iff.mpr hx.1, (treeRoot_of_none (wf.parent?_treeRoot x)).trans hx.2⟩
  have hsublist := (orderKey_lt_iff_sublist wf orderly.listed orderly.apart hx.1 hy.1
    (hx.2.trans hy.2.symm)).mp h
  -- the first document's walk goes down to a depth of its own; outlines are in order at any depth
  have hrenamed := hsublist.map rename
  unfold walk at hrenamed
  rw [← same.outline_eq orderly doc.size hroot] at hrenamed
  have hsorted := sorted_outline orderly'.wellFormed orderly'.listed orderly'.apart doc.size
    (rename (doc.treeRoot x))
  exact List.pairwise_iff_forall_sublist.mp hsorted hrenamed

theorem precedes_rename_iff (hx : x ∈ doc.treeOf node) (hy : y ∈ doc.treeOf node) :
    doc'.Precedes (rename x) (rename y) ↔ doc.Precedes x y := by
  refine ⟨fun h => ?_, same.precedes_rename orderly orderly' hx hy⟩
  have hne : x ≠ y := fun heq => h.ne (congrArg rename heq)
  refine (orderly.precedes_or_precedes hne).resolve_right fun h' => ?_
  exact h.asymm (same.precedes_rename orderly orderly' hy hx h')

theorem inOrder_map (hxs : ∀ y ∈ xs, y ∈ doc.treeOf node) (h : doc.InOrder xs) :
    doc'.InOrder (xs.map rename) :=
  List.pairwise_map.mpr (h.imp_of_mem fun hx hy =>
    same.precedes_rename orderly orderly' (hxs _ hx) (hxs _ hy))

/-! ## Axes and sorting -/

theorem siblings_rename_iff (hx : x ∈ doc.treeOf node) (hy : y ∈ doc.treeOf node) :
    doc'.Siblings (rename x) (rename y) ↔ doc.Siblings x y := by
  unfold Siblings
  rw [same.isContent_iff hx, same.isContent_iff hy]
  refine and_congr_right' (and_congr_right' ⟨?_, ?_⟩)
  · rintro ⟨parent', h, h'⟩
    rw [same.parent?_rename orderly orderly' hx] at h
    obtain ⟨parent, hparent, rfl⟩ := Option.map_eq_some_iff.mp h
    have hmem := (orderly.mem_treeOf_of_parent hparent).mp hx
    exact ⟨parent, hparent, (same.parent?_rename_iff orderly orderly' hy hmem).mp h'⟩
  · rintro ⟨parent, h, h'⟩
    have hmem := (orderly.mem_treeOf_of_parent h).mp hx
    exact ⟨rename parent, (same.parent?_rename_iff orderly orderly' hx hmem).mpr h,
      (same.parent?_rename_iff orderly orderly' hy hmem).mpr h'⟩

omit orderly orderly' in
theorem inTree_rename_iff (hx : x ∈ doc.treeOf node) (hy : y ∈ doc.treeOf node) :
    doc'.InTree (rename x) (rename y) ↔ doc.InTree x y := by
  have hx' := same.rename_mem hx
  have hy' := same.rename_mem hy
  unfold InTree
  rw [same.isContent_iff hy]
  exact and_congr (iff_of_true hy'.1 hy.1)
    (and_congr_left' (iff_of_true (hy'.2.trans hx'.2.symm) (hy.2.trans hx.2.symm)))

theorem onAxis_rename_iff (axis : Axis) (hx : x ∈ doc.treeOf node) (hy : y ∈ doc.treeOf node) :
    doc'.OnAxis axis (rename x) (rename y) ↔ doc.OnAxis axis x y := by
  have hself := same.rename_eq_iff hy hx
  have hcontent := same.isContent_iff hy
  have hchild := same.parent?_rename_iff orderly orderly' hy hx
  have hbelow := same.ancestor_rename_iff orderly orderly' hx hy
  have habove := same.ancestor_rename_iff orderly orderly' hy hx
  have hbehind := same.precedes_rename_iff orderly orderly' hx hy
  have hinFront := same.precedes_rename_iff orderly orderly' hy hx
  match axis with
  | .child | .attribute => simp only [OnAxis, hchild, hcontent]
  | .descendant => simp only [OnAxis, hbelow, hcontent]
  | .descendantOrSelf => simp only [OnAxis, hself, hbelow, hcontent]
  | .parent => exact same.parent?_rename_iff orderly orderly' hx hy
  | .ancestor => exact habove
  | .ancestorOrSelf => simp only [OnAxis, ancestorOrSelf_iff, hself, habove]
  | .self => exact hself
  | .followingSibling =>
      exact and_congr (same.siblings_rename_iff orderly orderly' hx hy) hbehind
  | .precedingSibling =>
      exact and_congr (same.siblings_rename_iff orderly orderly' hx hy) hinFront
  | .following => simp only [OnAxis, same.inTree_rename_iff hx hy, hbehind, hbelow]
  | .preceding => simp only [OnAxis, same.inTree_rename_iff hx hy, hinFront, habove]

/-- Lists in order are the same up to the renaming, if their members are. -/
theorem eq_map_rename {ys : List NodeId} (hxs : ∀ y ∈ xs, y ∈ doc.treeOf node)
    (hys : ∀ y ∈ ys, y ∈ doc'.treeOf node') (inOrder : doc.InOrder xs) (inOrder' : doc'.InOrder ys)
    (h : ∀ x ∈ doc.treeOf node, rename x ∈ ys ↔ x ∈ xs) : ys = xs.map rename := by
  refine inOrder'.eq_of_mem_iff (same.inOrder_map orderly orderly' hxs inOrder) fun y => ?_
  constructor
  · intro hy
    obtain ⟨x, hx, rfl⟩ := same.bijective.surjOn (hys y hy)
    exact List.mem_map_of_mem ((h x hx).mp hy)
  · intro hy
    obtain ⟨x, hx, rfl⟩ := List.mem_map.mp hy
    exact (h x (hxs x hx)).mpr hx

theorem axis_rename (axis : Axis) (hx : x ∈ doc.treeOf node) :
    doc'.axis axis (rename x) = (doc.axis axis x).map rename := by
  have hx' := same.rename_mem hx
  refine same.eq_map_rename orderly orderly' (orderly.axis_subset hx axis)
    (orderly'.axis_subset hx' axis) (orderly.inOrder_axis axis hx.1)
    (orderly'.inOrder_axis axis hx'.1) fun y hy => ?_
  rw [orderly'.mem_axis_iff axis hx'.1, orderly.mem_axis_iff axis hx.1]
  exact same.onAxis_rename_iff orderly orderly' axis hx hy

theorem sort_rename (hxs : ∀ x ∈ xs, x ∈ doc.treeOf node) :
    doc'.sort (xs.map rename) = (doc.sort xs).map rename := by
  have hsorted : ∀ x ∈ doc.sort xs, x ∈ doc.treeOf node :=
    fun x hx => hxs x (orderly.mem_sort_iff.mp hx)
  have hsorted' : ∀ y ∈ doc'.sort (xs.map rename), y ∈ doc'.treeOf node' := by
    intro y hy
    obtain ⟨x, hx, rfl⟩ := List.mem_map.mp (orderly'.mem_sort_iff.mp hy)
    exact same.rename_mem (hxs x hx)
  refine same.eq_map_rename orderly orderly' hsorted hsorted' (orderly.inOrder_sort xs)
    (orderly'.inOrder_sort _) fun y hy => ?_
  rw [orderly'.mem_sort_iff, orderly.mem_sort_iff]
  exact same.mem_map_rename_iff hxs hy

/-- Documents with the same tree mirror each other there. -/
theorem mirrors : doc.Mirrors (fun x y => x ∈ doc.treeOf node ∧ rename x = y) doc' where
  payload := by
    rintro x y ⟨hx, rfl⟩
    exact same.payload x hx
  axis := by
    rintro x y ⟨hx, rfl⟩ axis
    exact forall₂_rename_iff.mpr
      ⟨orderly.axis_subset hx axis, (same.axis_rename orderly orderly' axis hx).symm⟩
  sort := by
    intro xs ys h
    obtain ⟨hxs, rfl⟩ := forall₂_rename_iff.mp h
    exact forall₂_rename_iff.mpr ⟨fun x hx => hxs x (orderly.mem_sort_iff.mp hx),
      (same.sort_rename orderly orderly' hxs).symm⟩

end SameTree

end Document

/-! ## Evaluation -/

/-- The value with new names for its nodes. -/
def Value.rename (rename : NodeId → NodeId) : Value → Value
  | .nodes set => .nodes ⟨set.nodes.map rename⟩
  | value => value

variable {ctx : Context} {doc' : Document} {rename : NodeId → NodeId} {node' : NodeId}

/-- Alike values differ in the names of nodes only. -/
theorem Value.Alike.rename_eq {tree : Set NodeId} {value value' : Value}
    (alike : value.Alike (fun x y => x ∈ tree ∧ rename x = y) value') :
    value' = value.rename rename ∧ ∀ set, value = .nodes set → ∀ x ∈ set.nodes, x ∈ tree := by
  cases alike with
  | @nodes a b twins =>
      obtain ⟨htree, hrenamed⟩ := Document.forall₂_rename_iff.mp twins
      refine ⟨congrArg (fun nodes => Value.nodes ⟨nodes⟩) hrenamed.symm, fun set h => ?_⟩
      cases h
      exact htree
  | string | number | boolean => exact ⟨rfl, nofun⟩

/-- Without node-sets bound to variables, a context offers the same in the same tree. -/
theorem Document.SameTree.mirrors_context
    (same : ctx.document.SameTree doc' rename ctx.node node') (orderly : ctx.document.Orderly)
    (orderly' : doc'.Orderly) (hnode : ctx.node ∈ ctx.document)
    (scalar : ∀ name value, ctx.valueOf name = .ok value → value.type ≠ .nodes)
    (excused : EvalError → Prop) :
    ctx.Mirrors excused (fun x y => x ∈ ctx.document.treeOf ctx.node ∧ rename x = y)
      { ctx with document := doc', node := node' } where
  document := same.mirrors orderly orderly'
  node := ⟨⟨hnode, rfl⟩, same.start⟩
  position := rfl
  size := rfl
  referent name := by
    refine .refl fun value h => .of_type_ne_nodes ?_
    rcases Context.valueOf_of_referent h with hvalue | rfl
    · exact scalar name value hvalue
    · exact ValueType.noConfusion
  functionName _ := .refl fun _ _ => rfl
  settle _ _ := .refl fun _ _ => rfl

/-- An evaluation depends on no more of a document than the shape of the tree of its node: if a
renaming maps that tree to a tree of another document, the evaluation there fails with the same
fault, or gives the same value with the nodes renamed. The nodes of the value are in the tree. -/
theorem evaluate_same_tree (careful : ctx.document.Careful) (careful' : doc'.Careful)
    (hnode : ctx.node ∈ ctx.document)
    (same : ctx.document.SameTree doc' rename ctx.node node')
    (scalar : ∀ name value, ctx.valueOf name = .ok value → value.type ≠ .nodes) (expr : Expr) :
    evaluate .core expr { ctx with document := doc', node := node' } =
        (evaluate .core expr ctx).map (·.rename rename) ∧
      ∀ set, evaluate .core expr ctx = .ok (.nodes set) →
        ∀ x ∈ set.nodes, x ∈ ctx.document.treeOf ctx.node := by
  have mirrors := same.mirrors_context careful.orderly careful'.orderly hnode scalar fun _ => False
  have room : SameRoom (fun _ => False) ctx 0 { ctx with document := doc', node := node' } 0 :=
    fun _ => .refl fun _ _ => rfl
  have hagree := eval_agree expr mirrors room
  unfold evaluate
  generalize eval .core expr ctx 0 = outcome at hagree
  generalize eval .core expr { ctx with document := doc', node := node' } 0 = outcome' at hagree
  cases hagree with
  | excused h => exact h.elim
  | error cause => exact ⟨rfl, nofun⟩
  | ok alike =>
      obtain ⟨hrenamed, htree⟩ := alike.rename_eq
      exact ⟨congrArg Except.ok hrenamed, fun set h => htree set (Except.ok.inj h)⟩

/-- The same element is built in another order, with a comment beside it; behind its attribute is
its text. -/
theorem evaluate_same_tree_rebuilt :
    let commands : List Command := [.createElement (.plain "e") [(.plain "a", "v")],
      .edit ⟨1⟩ (.addText "s")]
    let commands' : List Command := [.createText "s", .createComment "t",
      .createElement (.plain "e") [(.plain "a", "v")], .edit ⟨3⟩ (.push ⟨1⟩)]
    let doc := Document.empty.run commands
    let doc' := Document.empty.run commands'
    let rename : NodeId → NodeId :=
      fun id => if id = ⟨1⟩ then ⟨3⟩ else if id = ⟨2⟩ then ⟨4⟩ else ⟨1⟩
    let ctx := Context.ofNode doc ⟨1⟩
    let expr := Expr.path .context [.attribute "a", .mk .following .text []]
    doc.Careful ∧ doc'.Careful ∧ ctx.node ∈ doc ∧ doc.SameTree doc' rename ⟨1⟩ ⟨3⟩ ∧
      (∀ name value, ctx.valueOf name = .ok value → value.type ≠ .nodes) ∧
      evaluate .core expr ctx = .ok (.nodes (.singleton ⟨3⟩)) ∧
      evaluate .core expr { ctx with document := doc', node := ⟨3⟩ } =
        .ok (.nodes (.singleton ⟨1⟩)) := by
  intro commands commands' doc doc' rename ctx expr
  have careful : doc.Careful := ⟨commands, by decide, rfl⟩
  have careful' : doc'.Careful := ⟨commands', by decide, rfl⟩
  have hnode : ctx.node ∈ doc := by decide
  have scalar : ∀ name value, ctx.valueOf name = .ok value → value.type ≠ .nodes := by
    intro name value h
    cases h
  -- the slots of the two trees
  have htree : ∀ x ∈ doc.treeOf ⟨1⟩, x = ⟨1⟩ ∨ x = ⟨2⟩ ∨ x = ⟨3⟩ := by
    have hslots : ∀ slot < doc.size, doc.treeRoot ⟨slot⟩ = doc.treeRoot ⟨1⟩ →
        slot = 1 ∨ slot = 2 ∨ slot = 3 := by decide
    rintro ⟨slot⟩ ⟨hmem, hroot⟩
    simpa using hslots slot hmem hroot
  have htree' : ∀ y ∈ doc'.treeOf ⟨3⟩, y = ⟨3⟩ ∨ y = ⟨4⟩ ∨ y = ⟨1⟩ := by
    have hslots : ∀ slot < doc'.size, doc'.treeRoot ⟨slot⟩ = doc'.treeRoot ⟨3⟩ →
        slot = 3 ∨ slot = 4 ∨ slot = 1 := by decide
    rintro ⟨slot⟩ ⟨hmem, hroot⟩
    simpa using hslots slot hmem hroot
  have each {P : NodeId → Prop} (helement : P ⟨1⟩) (hattribute : P ⟨2⟩) (htext : P ⟨3⟩) :
      ∀ x ∈ doc.treeOf ⟨1⟩, P x := by
    intro x hx
    rcases htree x hx with rfl | rfl | rfl
    · exact helement
    · exact hattribute
    · exact htext
  have same : doc.SameTree doc' rename ⟨1⟩ ⟨3⟩ :=
    { start := rfl
      bijective := by
        refine ⟨each ⟨by decide, by decide⟩ ⟨by decide, by decide⟩ ⟨by decide, by decide⟩, ?_, ?_⟩
        · intro x hx y hy
          rcases htree x hx with rfl | rfl | rfl <;> rcases htree y hy with rfl | rfl | rfl <;>
            decide
        · intro y hy
          rcases htree' y hy with rfl | rfl | rfl
          · exact ⟨⟨1⟩, ⟨by decide, by decide⟩, rfl⟩
          · exact ⟨⟨2⟩, ⟨by decide, by decide⟩, rfl⟩
          · exact ⟨⟨3⟩, ⟨by decide, by decide⟩, rfl⟩
      payload := each rfl rfl rfl
      children := each rfl rfl rfl
      attributes := each rfl rfl rfl }
  have hvalue : evaluate .core expr ctx = .ok (.nodes (.singleton ⟨3⟩)) := by decide +kernel
  have hrenamed := (evaluate_same_tree careful careful' hnode same scalar expr).1
  rw [hvalue] at hrenamed
  exact ⟨careful, careful', hnode, same, scalar, hvalue, hrenamed⟩

end XPathTree
