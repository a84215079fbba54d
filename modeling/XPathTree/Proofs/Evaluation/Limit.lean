import XPathTree.Proofs.Document.Invariant
import XPathTree.Proofs.Evaluation.Fault
import XPathTree.Proofs.Mirror.Evaluation

/-!
# The limit of depth

The limit is looked at for nothing but to refuse expressions that are too deep. Evaluations
with different limits run in the same document and context otherwise, which mirror themselves;
so they agree, up to the refusals of the lower limit (`eval_limited_agree`). And an expression
is refused only if its parts are nested deeper than the limit: what is too deep is the
expression itself or one of its parts, and no other fault looks like a refusal
(`eval_ne_depthExceeded`).
-/

namespace XPathTree

variable {ctx : Context} {depth limit limit' : Nat} {expr : Expr}

/-- The same context with another limit of depth. -/
def Context.limited (ctx : Context) (limit : Nat) : Context :=
  { ctx with config := { ctx.config with maxDepth := limit } }

/-! ## Two limits -/

/-- The limit has no part in what a context offers. -/
theorem mirrors_limited (excused : EvalError → Prop) (ctx : Context) (limit limit' : Nat) :
    (ctx.limited limit).Mirrors excused Eq (ctx.limited limit') where
  document := .refl ctx.document
  node := rfl
  position := rfl
  size := rfl
  referent _ := .refl fun value _ => .refl value
  functionName _ := .refl fun _ _ => rfl
  settle _ _ := .refl fun _ _ => rfl

/-- Under the higher limit nothing is too deep that is not too deep under the lower one. -/
theorem sameRoom_limited (h : limit ≤ limit') (ctx : Context) (depth : Nat) :
    SameRoom (· = .depthExceeded limit) (ctx.limited limit) depth (ctx.limited limit') depth := by
  intro levels
  unfold Context.checkDepth
  by_cases exceeds : (ctx.limited limit).config.maxDepth < depth + levels
  · rw [if_pos exceeds]
    exact .excused rfl
  · have hwithin : ¬ (ctx.limited limit').config.maxDepth < depth + levels :=
      fun exceeds' => exceeds (Nat.lt_of_le_of_lt h exceeds')
    rw [if_neg exceeds, if_neg hwithin]
    exact .ok rfl

theorem eval_limited_agree (h : limit ≤ limit') :
    eval .core expr (ctx.limited limit) depth = .error (.depthExceeded limit) ∨
      eval .core expr (ctx.limited limit) depth = eval .core expr (ctx.limited limit') depth := by
  have hagree := eval_agree expr (mirrors_limited _ ctx limit limit') (sameRoom_limited h ctx depth)
  refine hagree.excused_or_eq.imp_left ?_
  rintro ⟨_, rfl, hexcused⟩
  exact hexcused

/-! ## A limit that suffices -/

/-- An expression that is not too deep itself does not raise a refusal. -/
theorem not_raises_depthExceeded (within : depth ≤ ctx.config.maxDepth) :
    ¬ Raises .core ctx depth expr (.depthExceeded limit) := by
  intro raises
  cases raises.core with
  | depth exceeds => exact absurd exceeds (Nat.not_lt.mpr within)

/-- Where there are as many levels left as parts are nested, nothing is refused. -/
theorem eval_ne_depthExceeded (within : depth + expr.nesting ≤ ctx.config.maxDepth) :
    eval .core expr ctx depth ≠ .error (.depthExceeded limit) := by
  induction expr using Expr.induction generalizing ctx depth with
  | step expr ih =>
      intro h
      rcases cause_of_eval h with raises | ⟨part, hpart, node, position, size, h⟩
      · exact not_raises_depthExceeded (by omega) raises
      · have hlt := Expr.nesting_lt_of_mem_parts hpart
        have hpartWithin : depth + 1 + part.nesting ≤
            (ctx.focus node position size).config.maxDepth :=
          Nat.le_trans (by omega) within
        exact ih part hpart hpartWithin h

/-- A lower limit refuses an expression or makes no difference to its evaluation, and it refuses
none that is nested no deeper. -/
theorem evaluate_limited (expr : Expr) (ctx : Context) (h : limit ≤ limit') :
    (evaluate .core expr (ctx.limited limit) = .error (.depthExceeded limit) ∨
      evaluate .core expr (ctx.limited limit) = evaluate .core expr (ctx.limited limit')) ∧
    (expr.nesting ≤ limit →
      ∀ exceeded, evaluate .core expr (ctx.limited limit) ≠ .error (.depthExceeded exceeded)) := by
  refine ⟨eval_limited_agree h, fun hnesting exceeded => eval_ne_depthExceeded ?_⟩
  rw [Nat.zero_add]
  exact hnesting

/-- What an operand decides is not refused for the depth of the other operand. -/
theorem evaluate_limited_or :
    let expr := Expr.binary .or (.literal "true") (.negate (.negate (.number (.ofNat 1))))
    let ctx := Context.ofNode .empty Document.root
    evaluate .core expr (ctx.limited 0) = .error (.depthExceeded 0) ∧
      evaluate .core expr (ctx.limited 1) = .ok (.boolean true) ∧
      evaluate .core expr (ctx.limited 3) = .ok (.boolean true) ∧ expr.nesting ≤ 3 ∧
      ∀ exceeded, evaluate .core expr (ctx.limited 3) ≠ .error (.depthExceeded exceeded) := by
  intro expr ctx
  have hdecided : evaluate .core expr (ctx.limited 1) = .ok (.boolean true) := by decide +kernel
  have hhigher := (evaluate_limited expr ctx (by decide : 1 ≤ 3)).1.resolve_left
    (by rw [hdecided]; nofun)
  have hnesting : expr.nesting ≤ 3 := by
    simp only [expr, Expr.nesting_le_iff, Expr.parts, List.forall_mem_cons, Nat.lt_succ_iff]
    simp
  exact ⟨by decide +kernel, hdecided, hhigher ▸ hdecided, hnesting,
    (evaluate_limited expr ctx (Nat.le_refl 3)).2 hnesting⟩

end XPathTree
