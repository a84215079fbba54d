import Mathlib.Data.Finset.Card
import XPathTree.Library.CoreFunction
import XPathTree.Proofs.Axis.Direction
import XPathTree.Proofs.Double.Equality
import XPathTree.Proofs.Evaluation.Selection
import XPathTree.Proofs.Value.NodeSet

/-!
# Steps and proximity

The meaning of a step, without the lists it is computed with. The position of a node among
some nodes counts those of them that are nearer on the axis, by document order
(`proximity`). A predicate is asked of each of the nodes at its position; it keeps the nodes
of the positions that its value admits (`Value.Admits`, `Kept`), and the predicates of a step
narrow a finite set of nodes in turn (`Narrows`).

* `evalPredicates_iff`: enumerating the nodes from the nearest on gives every node its
  proximity, before each predicate anew;
* `evalStep_iff_selects`: a step leads from a node-set to the nodes that are selected from
  any of its nodes, in document order.
-/

namespace XPathTree

/-! ## Values of predicates -/

/-- A number admits the position that it is, and any other value admits every position if it
is true. -/
def Value.Admits (position : Nat) : Value → Prop
  | .number found => found = .ofNat position
  | value => value.toBool = true

instance (position : Nat) : (value : Value) → Decidable (value.Admits position)
  | .number found => inferInstanceAs (Decidable (found = .ofNat position))
  | .nodes set => inferInstanceAs (Decidable ((Value.nodes set).toBool = true))
  | .string text => inferInstanceAs (Decidable ((Value.string text).toBool = true))
  | .boolean value => inferInstanceAs (Decidable ((Value.boolean value).toBool = true))

theorem Value.keeps_eq_decide {position : Nat} (h : 0 < position) (value : Value) :
    value.keeps position = decide (value.Admits position) := by
  rw [Bool.eq_iff_iff, decide_eq_true_iff]
  cases value with
  | number found => exact Double.equals_iff (Double.isNonzero_ofNat h)
  | nodes | string | boolean => exact Iff.rfl

/-! ## Nearness -/

/-- On these axes the nodes lie in front of where the axis starts, or around it. -/
def Axis.LooksBack (axis : Axis) : Prop :=
  axis = .ancestor ∨ axis = .ancestorOrSelf ∨ axis = .preceding ∨ axis = .precedingSibling

instance (axis : Axis) : Decidable axis.LooksBack :=
  inferInstanceAs (Decidable (_ ∨ _ ∨ _ ∨ _))

theorem Axis.isReverse_iff {axis : Axis} : axis.isReverse = true ↔ axis.LooksBack := by
  cases axis <;> decide

namespace Document

variable {doc : Document} {axis : Axis} {x y node : NodeId} {before behind : List NodeId}

/-- The first node is nearer than the second to where the axis starts. -/
def Nearer (doc : Document) (axis : Axis) (x y : NodeId) : Prop :=
  if axis.LooksBack then doc.Precedes y x else doc.Precedes x y

instance : Decidable (doc.Nearer axis x y) :=
  inferInstanceAs (Decidable (if axis.LooksBack then doc.Precedes y x else doc.Precedes x y))

theorem Nearer.asymm (h : doc.Nearer axis x y) : ¬ doc.Nearer axis y x := by
  unfold Nearer at h ⊢
  by_cases hback : axis.LooksBack
  · rw [if_pos hback] at h ⊢
    exact Precedes.asymm h
  · rw [if_neg hback] at h ⊢
    exact Precedes.asymm h

theorem Nearer.ne (h : doc.Nearer axis x y) : x ≠ y := by
  rintro rfl
  exact h.asymm h

/-- The position of a node among some nodes: the nearest is the first. -/
def proximity (doc : Document) (axis : Axis) (nodes : Finset NodeId) (node : NodeId) : Nat :=
  1 + (nodes.filter fun other => doc.Nearer axis other node).card

/-- In a list by nearness, the place of a node is its proximity. -/
theorem proximity_eq (near : (before ++ node :: behind).Pairwise (doc.Nearer axis)) :
    doc.proximity axis (before ++ node :: behind).toFinset node = 1 + before.length := by
  obtain ⟨hbefore, hnode, hacross⟩ := List.pairwise_append.mp near
  have hnearer :
      ((before ++ node :: behind).toFinset.filter fun other => doc.Nearer axis other node) =
        before.toFinset := by
    ext other
    rw [Finset.mem_filter, List.mem_toFinset, List.mem_toFinset, List.mem_append, List.mem_cons]
    constructor
    · rintro ⟨hother | rfl | hother, h⟩
      · exact hother
      · exact absurd rfl h.ne
      · exact absurd h (List.rel_of_pairwise_cons hnode hother).asymm
    · exact fun hother => ⟨.inl hother, hacross other hother node List.mem_cons_self⟩
  unfold proximity
  rw [hnearer, List.toFinset_card_of_nodup (hbefore.imp Nearer.ne)]

/-- The candidates of a step come by nearness. -/
theorem Orderly.nearer_candidates (orderly : doc.Orderly) (hnode : node ∈ doc)
    (test : SettledTest) : (doc.candidates axis test node).Pairwise (doc.Nearer axis) := by
  have hfound := (orderly.inOrder_axis axis hnode).sublist
    (List.filter_sublist (p := fun candidate => test.accepts (doc.kind? candidate)))
  unfold candidates Nearer
  simp only [Axis.isReverse_iff]
  split
  · exact List.pairwise_reverse.mpr hfound
  · exact hfound

end Document

/-! ## Predicates -/

section Predicates

variable (library : Library) (ctx : Context) (depth : Nat) (axis : Axis)

/-- What a predicate gives for one of some nodes, asked at its position among them. -/
def valueAmong (predicate : Expr) (nodes : Finset NodeId) (node : NodeId) :
    Except EvalError Value :=
  eval library predicate
    (ctx.focus node (ctx.document.proximity axis nodes node) nodes.card) (depth + 1)

/-- A predicate keeps a node of some nodes. -/
def Kept (predicate : Expr) (nodes : Finset NodeId) (node : NodeId) : Prop :=
  ∃ value, valueAmong library ctx depth axis predicate nodes node = .ok value ∧
    value.Admits (ctx.document.proximity axis nodes node)

instance (predicate : Expr) (nodes : Finset NodeId) (node : NodeId) :
    Decidable (Kept library ctx depth axis predicate nodes node) :=
  match h : valueAmong library ctx depth axis predicate nodes node with
  | .ok value =>
      decidable_of_iff (value.Admits (ctx.document.proximity axis nodes node)) (by
        simp [Kept, h])
  | .error _ => .isFalse (by simp [Kept, h])

/-- Each predicate in turn has a value for all nodes that the ones before it have left, and
keeps some of them; the last nodes are what the predicates leave of the first. -/
inductive Narrows : List Expr → Finset NodeId → Finset NodeId → Prop where
  | nil (nodes : Finset NodeId) : Narrows [] nodes nodes
  | cons {predicate : Expr} {rest : List Expr} {nodes kept left : Finset NodeId}
      (asked : ∀ node ∈ nodes, ∃ value,
        valueAmong library ctx depth axis predicate nodes node = .ok value)
      (mem_kept : ∀ node, node ∈ kept ↔
        node ∈ nodes ∧ Kept library ctx depth axis predicate nodes node)
      (narrows : Narrows rest kept left) : Narrows (predicate :: rest) nodes left

/-- A step with a settled test and predicates can look from a node, and selects some nodes:
those on its axis that pass the test, as far as the predicates leave them. -/
def Selects (test : SettledTest) (predicates : List Expr) (node : NodeId)
    (selected : Finset NodeId) : Prop :=
  ∃ candidates : Finset NodeId,
    (∀ x, x ∈ candidates ↔
      ctx.document.OnAxis axis node x ∧ test.accepts (ctx.document.kind? x) = true) ∧
    Narrows library ctx depth axis predicates candidates selected

end Predicates

section Asking

variable {library : Library} {ctx : Context} {depth : Nat} {axis : Axis}
variable {predicate : Expr} {predicates : List Expr} {nodes kept : List NodeId}

/-- Asks a predicate of a node at a position among so many nodes. -/
def ask (library : Library) (ctx : Context) (depth : Nat) (predicate : Expr) (size : Nat)
    (node : NodeId) (position : Nat) : Except EvalError Bool := do
  let value ← eval library predicate (ctx.focus node position size) (depth + 1)
  .ok (value.keeps position)

/-- A node is asked at its proximity. -/
theorem ask_eq_map (near : nodes.Pairwise (ctx.document.Nearer axis))
    {before behind : List NodeId} {node : NodeId} (hnodes : nodes = before ++ node :: behind) :
    ask library ctx depth predicate nodes.length node (1 + before.length) =
      (valueAmong library ctx depth axis predicate nodes.toFinset node).map
        (·.keeps (ctx.document.proximity axis nodes.toFinset node)) := by
  have hplace : ctx.document.proximity axis nodes.toFinset node = 1 + before.length := by
    subst hnodes
    exact Document.proximity_eq near
  unfold ask valueAmong
  rw [hplace, List.toFinset_card_of_nodup (near.imp Document.Nearer.ne)]
  cases eval library predicate (ctx.focus node (1 + before.length) nodes.length) (depth + 1) with
  | error fault => rfl
  | ok value => rfl

theorem map_keeps_eq_decide {axis : Axis} {nodes : Finset NodeId} {node : NodeId} {value : Value}
    (h : valueAmong library ctx depth axis predicate nodes node = .ok value) :
    (valueAmong library ctx depth axis predicate nodes node).map
        (·.keeps (ctx.document.proximity axis nodes node)) =
      .ok (decide (Kept library ctx depth axis predicate nodes node)) := by
  have hkept : Kept library ctx depth axis predicate nodes node ↔
      value.Admits (ctx.document.proximity axis nodes node) := by
    unfold Kept
    rw [h]
    exact ⟨fun ⟨_, hvalue, hadmits⟩ => Except.ok.inj hvalue ▸ hadmits, fun h => ⟨value, rfl, h⟩⟩
  have hpos : 0 < ctx.document.proximity axis nodes node := Nat.add_pos_left Nat.one_pos _
  rw [h, Except.map, Value.keeps_eq_decide hpos]
  simp only [hkept]

/-- One predicate, asked along a list by nearness. -/
theorem keepWhere_ask_iff (near : nodes.Pairwise (ctx.document.Nearer axis)) :
    keepWhere (ask library ctx depth predicate nodes.length) 1 nodes = .ok kept ↔
      (∀ node ∈ nodes, ∃ value,
        valueAmong library ctx depth axis predicate nodes.toFinset node = .ok value) ∧
      nodes.filter (Kept library ctx depth axis predicate nodes.toFinset ·) = kept := by
  have hfilter (asked : ∀ node ∈ nodes, ∃ value,
      valueAmong library ctx depth axis predicate nodes.toFinset node = .ok value) :
      keepWhere (ask library ctx depth predicate nodes.length) 1 nodes =
        .ok (nodes.filter (Kept library ctx depth axis predicate nodes.toFinset ·)) := by
    refine keepWhere_eq_filter fun before node behind hnodes => ?_
    obtain ⟨value, hvalue⟩ := asked node (by simp [hnodes])
    rw [ask_eq_map near hnodes, map_keeps_eq_decide hvalue]
  constructor
  · intro h
    have asked : ∀ node ∈ nodes, ∃ value,
        valueAmong library ctx depth axis predicate nodes.toFinset node = .ok value := by
      intro node hnode
      obtain ⟨before, behind, hnodes⟩ := List.append_of_mem hnode
      obtain ⟨answer, hanswer⟩ := exists_of_keepWhere h hnodes
      rw [ask_eq_map near hnodes] at hanswer
      cases hvalue : valueAmong library ctx depth axis predicate nodes.toFinset node with
      | error fault => rw [hvalue] at hanswer; cases hanswer
      | ok value => exact ⟨value, rfl⟩
    exact ⟨asked, Except.ok.inj ((hfilter asked).symm.trans h)⟩
  · rintro ⟨asked, rfl⟩
    exact hfilter asked

/-- The list that predicates leave of a list by nearness holds what they narrow its nodes
to. -/
theorem evalPredicates_iff (near : nodes.Pairwise (ctx.document.Nearer axis))
    {left : Finset NodeId} :
    (∃ kept, evalPredicates library predicates nodes ctx depth = .ok kept ∧
        kept.toFinset = left) ↔
      Narrows library ctx depth axis predicates nodes.toFinset left := by
  -- what a predicate leaves is by nearness again, so that the next one counts from the start
  induction predicates generalizing nodes with
  | nil =>
      constructor
      · rintro ⟨kept, h, rfl⟩
        cases h
        exact .nil _
      · intro h
        cases h
        exact ⟨nodes, rfl, rfl⟩
  | cons predicate rest ih =>
      have hmem (node : NodeId) :
          node ∈ (nodes.filter
              (Kept library ctx depth axis predicate nodes.toFinset ·)).toFinset ↔
            node ∈ nodes.toFinset ∧ Kept library ctx depth axis predicate nodes.toFinset node := by
        rw [List.mem_toFinset, List.mem_filter, List.mem_toFinset, decide_eq_true_iff]
      constructor
      · rintro ⟨kept, h, hleft⟩
        obtain ⟨first, hfirst, h⟩ := exists_of_bind_ok h
        obtain ⟨asked, rfl⟩ := (keepWhere_ask_iff near).mp hfirst
        exact .cons (fun node hnode => asked node (List.mem_toFinset.mp hnode)) hmem
          ((ih (near.filter _)).mp ⟨kept, h, hleft⟩)
      · rintro (_ | ⟨asked, mem_kept, narrows⟩)
        have hfirst := (keepWhere_ask_iff near).mpr
          ⟨fun node hnode => asked node (List.mem_toFinset.mpr hnode), rfl⟩
        obtain rfl := Finset.ext fun node => (mem_kept node).trans (hmem node).symm
        obtain ⟨kept, h, hleft⟩ := (ih (near.filter _)).mpr narrows
        refine ⟨kept, ?_, hleft⟩
        rw [evalPredicates]
        exact (congrArg (· >>= _) hfirst).trans h

end Asking

/-! ## Steps -/

section Steps

variable {library : Library} {ctx : Context} {depth : Nat} {axis : Axis} {test : SettledTest}
variable {predicates : List Expr} {node : NodeId}

/-- The list that a step keeps from a node holds what it selects. -/
theorem exists_evalPredicates_iff (orderly : ctx.document.Orderly) (hnode : node ∈ ctx.document)
    {selected : Finset NodeId} :
    (∃ kept, evalPredicates library predicates (ctx.document.candidates axis test node) ctx depth =
        .ok kept ∧ kept.toFinset = selected) ↔
      Selects library ctx depth axis test predicates node selected := by
  rw [evalPredicates_iff (orderly.nearer_candidates hnode test)]
  have hmem (x : NodeId) : x ∈ (ctx.document.candidates axis test node).toFinset ↔
      ctx.document.OnAxis axis node x ∧ test.accepts (ctx.document.kind? x) = true := by
    rw [List.mem_toFinset, Document.mem_candidates_iff, orderly.mem_axis_iff axis hnode]
  constructor
  · exact fun h => ⟨_, hmem, h⟩
  · rintro ⟨candidates, hcandidates, h⟩
    obtain rfl := Finset.ext fun x => (hcandidates x).trans (hmem x).symm
    exact h

/-- A step can be taken from a node-set when its test can be settled and it can look from
each of the nodes. It then leads to the nodes that it selects from any of them, in document
order. -/
theorem evalStep_iff_selects {test : NodeTest} {set result : NodeSet}
    (careful : ctx.document.Careful) (known : ∀ node ∈ set.nodes, node ∈ ctx.document) :
    evalStep library (.mk axis test predicates) set ctx depth = .ok result ↔
      ∃ settled, test.settle ctx axis = .ok settled ∧
        ∃ selected : NodeId → Finset NodeId,
          (∀ node ∈ set.nodes,
            Selects library ctx depth axis settled predicates node (selected node)) ∧
          ctx.document.InOrder result.nodes ∧
          ∀ x, x ∈ result.nodes ↔ ∃ node ∈ set.nodes, x ∈ selected node := by
  have orderly := careful.orderly
  rw [evalStep_iff]
  refine exists_congr fun settled => and_congr_right fun _ => ?_
  constructor
  · rintro ⟨each, heach, rfl⟩
    refine ⟨fun node => (each node).toFinset, fun node hnode => ?_, ?_, fun x => ?_⟩
    · exact (exists_evalPredicates_iff orderly (known node hnode)).mp ⟨_, heach node hnode, rfl⟩
    · exact NodeSet.inOrder_ofNodes orderly _
    · simp only [NodeSet.mem_ofNodes_iff orderly, List.mem_flatMap, List.mem_toFinset]
  · rintro ⟨selected, hselected, inOrder, hmem⟩
    choose! each heach hleft using fun node hnode =>
      (exists_evalPredicates_iff orderly (known node hnode)).mpr (hselected node hnode)
    refine ⟨each, heach, ?_⟩
    refine (NodeSet.inOrder_ofNodes orderly _).eq_of_mem_iff inOrder fun x => ?_
    rw [hmem, NodeSet.mem_ofNodes_iff orderly, List.mem_flatMap]
    refine exists_congr fun node => and_congr_right fun hnode => ?_
    rw [← hleft node hnode, List.mem_toFinset]

/-- Of the two siblings in front of a node, the nearer is the first and is left out by the
first predicate, so that the farther becomes the first for the second predicate. -/
theorem evalStep_iff_selects_renumbered :
    let commands : List Command := [.createElement (.plain "e") [],
      .edit ⟨1⟩ (.addText "s"), .edit ⟨1⟩ (.addComment "t"), .edit ⟨1⟩ (.addText "u")]
    let doc := Document.empty.run commands
    let ctx := Context.ofNode doc ⟨4⟩
    let first := Expr.number (.ofNat 1)
    let other := Expr.binary .unequal (.call "position" []) first
    doc.Careful ∧ (∀ node ∈ (NodeSet.singleton ⟨4⟩).nodes, node ∈ doc) ∧
      evalStep .core (.mk .precedingSibling .node [other, first]) (.singleton ⟨4⟩) ctx 0 =
        .ok (.singleton ⟨2⟩) ∧
      Selects .core ctx 0 .precedingSibling .node [other, first] ⟨4⟩ {⟨2⟩} := by
  intro commands doc ctx first other
  have careful : ctx.document.Careful := ⟨commands, by decide, rfl⟩
  have known : ∀ node ∈ (NodeSet.singleton ⟨4⟩).nodes, node ∈ ctx.document := by decide
  have hstep : evalStep .core (.mk .precedingSibling .node [other, first]) (.singleton ⟨4⟩)
      ctx 0 = .ok (.singleton ⟨2⟩) := by decide +kernel
  refine ⟨careful, known, hstep, ?_⟩
  obtain ⟨settled, hsettled, selected, hselected, _, hmem⟩ :=
    (evalStep_iff_selects careful known).mp hstep
  obtain rfl : SettledTest.node = settled := Except.ok.inj hsettled
  have hfrom : selected ⟨4⟩ = {⟨2⟩} := by
    ext x
    rw [Finset.mem_singleton]
    have hx := hmem x
    simp only [NodeSet.singleton, List.mem_singleton, exists_eq_left] at hx
    exact hx.symm
  exact hfrom ▸ hselected ⟨4⟩ List.mem_cons_self

end Steps

end XPathTree
