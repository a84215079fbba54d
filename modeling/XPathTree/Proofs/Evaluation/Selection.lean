import Mathlib.Tactic.Choose
import XPathTree.Evaluation

/-!
# Evaluation that succeeds

What is known of the parts once the whole has a value: every part has one too, the nodes
that predicates leave are among those they were given, and a step leads to nodes that are
each left over from the candidates of a node.
-/

namespace XPathTree

variable {library : Library} {ctx : Context} {depth : Nat}
variable {nodes kept found : List NodeId}

/-- A sequence that succeeds has succeeded in its parts. -/
theorem exists_of_bind_ok {α β : Type} {first : Except EvalError α}
    {rest : α → Except EvalError β} {result : β} (h : (first >>= rest) = .ok result) :
    ∃ value, first = .ok value ∧ rest value = .ok result := by
  cases first with
  | error fault => cases h
  | ok value => exact ⟨value, rfl, h⟩

/-! ## Keeping -/

section Keep

variable {keep : NodeId → Nat → Except EvalError Bool} {position : Nat}

/-- Each node has been asked with the number of nodes in front of it as its position. -/
theorem exists_of_keepWhere (h : keepWhere keep position nodes = .ok kept)
    {before behind : List NodeId} {node : NodeId} (hnodes : nodes = before ++ node :: behind) :
    ∃ answer, keep node (position + before.length) = .ok answer := by
  induction nodes generalizing position kept before with
  | nil => simp at hnodes
  | cons head nodes ih =>
      obtain ⟨answer, hanswer, h⟩ := exists_of_bind_ok h
      obtain ⟨rest, hrest, _⟩ := exists_of_bind_ok h
      cases before with
      | nil =>
          obtain ⟨rfl, _⟩ := List.cons.inj hnodes
          exact ⟨answer, hanswer⟩
      | cons _ before =>
          rw [List.length_cons, Nat.add_comm _ 1, ← Nat.add_assoc]
          exact ih hrest (List.cons.inj hnodes).2

/-- Where every answer is known, the nodes of a positive answer are kept. -/
theorem keepWhere_eq_filter {answer : NodeId → Bool}
    (h : ∀ before node behind, nodes = before ++ node :: behind →
      keep node (position + before.length) = .ok (answer node)) :
    keepWhere keep position nodes = .ok (nodes.filter answer) := by
  induction nodes generalizing position with
  | nil => rfl
  | cons head nodes ih =>
      have hhead : keep head position = .ok (answer head) := h [] head nodes rfl
      have hrest := ih fun before node behind hnodes => by
        have := h (head :: before) node behind (by rw [hnodes]; rfl)
        rwa [List.length_cons, Nat.add_comm _ 1, ← Nat.add_assoc] at this
      rw [keepWhere, hhead, hrest, List.filter_cons]
      rfl

theorem keepWhere_sublist (h : keepWhere keep position nodes = .ok kept) :
    kept.Sublist nodes := by
  induction nodes generalizing position kept with
  | nil =>
      cases h
      exact .slnil
  | cons head nodes ih =>
      obtain ⟨answer, _, h⟩ := exists_of_bind_ok h
      obtain ⟨rest, hrest, h⟩ := exists_of_bind_ok h
      cases h
      cases answer with
      | true => exact (ih hrest).cons_cons head
      | false => exact (ih hrest).cons head

end Keep

/-- Predicates only leave nodes out. -/
theorem evalPredicates_sublist {predicates : List Expr}
    (h : evalPredicates library predicates nodes ctx depth = .ok kept) :
    kept.Sublist nodes := by
  induction predicates generalizing nodes with
  | nil =>
      cases h
      exact .refl _
  | cons predicate rest ih =>
      obtain ⟨first, hfirst, h⟩ := exists_of_bind_ok h
      exact (ih h).trans (keepWhere_sublist hfirst)

/-! ## Selecting -/

section Select

variable {select : NodeId → Except EvalError (List NodeId)}

theorem exists_of_selectEach (h : selectEach select nodes = .ok found) :
    ∀ node ∈ nodes, ∃ each, select node = .ok each := by
  induction nodes generalizing found with
  | nil => exact List.forall_mem_nil _
  | cons head nodes ih =>
      obtain ⟨first, hfirst, h⟩ := exists_of_bind_ok h
      obtain ⟨rest, hrest, _⟩ := exists_of_bind_ok h
      exact List.forall_mem_cons.mpr ⟨⟨first, hfirst⟩, ih hrest⟩

theorem selectEach_eq_flatMap {each : NodeId → List NodeId}
    (h : ∀ node ∈ nodes, select node = .ok (each node)) :
    selectEach select nodes = .ok (nodes.flatMap each) := by
  induction nodes with
  | nil => rfl
  | cons head nodes ih =>
      obtain ⟨hhead, hnodes⟩ := List.forall_mem_cons.mp h
      rw [selectEach, hhead, ih hnodes]
      rfl

/-- Selecting succeeds when it does for each node, and joins what it finds. -/
theorem selectEach_iff : selectEach select nodes = .ok found ↔
    ∃ each : NodeId → List NodeId,
      (∀ node ∈ nodes, select node = .ok (each node)) ∧ nodes.flatMap each = found := by
  constructor
  · intro h
    choose! each heach using exists_of_selectEach h
    have hjoined := selectEach_eq_flatMap heach
    rw [h] at hjoined
    exact ⟨each, heach, (Except.ok.inj hjoined).symm⟩
  · rintro ⟨each, heach, rfl⟩
    exact selectEach_eq_flatMap heach

end Select

theorem Document.mem_candidates_iff {doc : Document} {axis : Axis} {test : SettledTest}
    {node x : NodeId} : x ∈ doc.candidates axis test node ↔
      x ∈ doc.axis axis node ∧ test.accepts (doc.kind? x) = true := by
  unfold candidates
  dsimp only
  split
  · rw [List.mem_reverse, List.mem_filter]
  · exact List.mem_filter

section Step

variable {axis : Axis} {test : NodeTest} {settled : SettledTest} {predicates : List Expr}
variable {node x : NodeId} {set result : NodeSet}

theorem mem_axis_of_evalPredicates
    (h : evalPredicates library predicates (ctx.document.candidates axis settled node) ctx depth =
      .ok kept) (hx : x ∈ kept) : x ∈ ctx.document.axis axis node :=
  (Document.mem_candidates_iff.mp ((evalPredicates_sublist h).subset hx)).1

/-- A step merges what is left of the candidates of each node. -/
theorem evalStep_iff : evalStep library (.mk axis test predicates) set ctx depth = .ok result ↔
    ∃ settled, test.settle ctx axis = .ok settled ∧ ∃ each : NodeId → List NodeId,
      (∀ node ∈ set.nodes, evalPredicates library predicates
        (ctx.document.candidates axis settled node) ctx depth = .ok (each node)) ∧
      .ofNodes ctx.document (set.nodes.flatMap each) = result := by
  constructor
  · intro h
    obtain ⟨settled, hsettled, h⟩ := exists_of_bind_ok h
    obtain ⟨found, hfound, h⟩ := exists_of_bind_ok h
    obtain ⟨each, heach, rfl⟩ := selectEach_iff.mp hfound
    exact ⟨settled, hsettled, each, heach, Except.ok.inj h⟩
  · rintro ⟨settled, hsettled, each, heach, rfl⟩
    simp only [evalStep, hsettled, bind, Except.bind, selectEach_eq_flatMap heach]

end Step

end XPathTree
