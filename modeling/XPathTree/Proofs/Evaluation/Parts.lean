import XPathTree.Evaluation

/-!
# Parts of expressions

Evaluation of an expression evaluates its parts: operands, arguments, what is filtered, where
a path starts, and the predicates of filters and steps. Parts are evaluated one level deeper
than the expression. They are smaller than it, which gives the induction over expressions
(`Expr.induction`): what is shown of an expression from its parts holds of all expressions, with
no case for lists of arguments, steps or predicates.

Every evaluation first looks at the depth; the equations `eval_literal` to `eval_negate` say
what it does then, for each form of expression.
-/

namespace XPathTree

/-- The predicates of a step. -/
def Step.predicates : Step → List Expr
  | .mk _ _ predicates => predicates

/-- The expression that a path starts from, if there is one. -/
def Start.parts : Start → List Expr
  | .context | .root => []
  | .nodes source => [source]

namespace Expr

/-- What the evaluation of an expression evaluates, one level deeper. -/
def parts : Expr → List Expr
  | .literal _ | .number _ | .reference _ => []
  | .call _ arguments => arguments
  | .path start steps => start.parts ++ steps.flatMap Step.predicates
  | .filter primary predicates => primary :: predicates
  | .binary _ left right => [left, right]
  | .negate operand => [operand]

variable {expr part : Expr}

theorem sizeOf_lt_of_mem_parts (h : part ∈ expr.parts) : sizeOf part < sizeOf expr := by
  cases expr with
  | literal | number | reference => cases h
  | call name arguments =>
      have hlt : sizeOf part < sizeOf arguments := List.sizeOf_lt_of_mem h
      simp only [call.sizeOf_spec]
      omega
  | path start steps =>
      simp only [path.sizeOf_spec]
      rcases List.mem_append.mp h with h | h
      · cases start with
        | context | root => cases h
        | nodes source =>
            rw [List.mem_singleton.mp h]
            simp only [Start.nodes.sizeOf_spec]
            omega
      · obtain ⟨⟨axis, test, predicates⟩, hstep, h⟩ := List.mem_flatMap.mp h
        have hlt := List.sizeOf_lt_of_mem hstep
        have hlt' := List.sizeOf_lt_of_mem h
        simp only [Step.mk.sizeOf_spec, Step.predicates] at hlt hlt'
        omega
  | filter primary predicates =>
      simp only [filter.sizeOf_spec]
      rcases List.mem_cons.mp h with rfl | h
      · omega
      · have hlt := List.sizeOf_lt_of_mem h
        omega
  | binary op left right =>
      simp only [binary.sizeOf_spec]
      rcases List.mem_cons.mp h with rfl | h
      · omega
      · rw [List.mem_singleton.mp h]
        omega
  | negate operand =>
      rw [List.mem_singleton.mp h, negate.sizeOf_spec]
      omega

/-- What an expression has if its parts have it, all expressions have. -/
theorem induction {motive : Expr → Prop}
    (step : ∀ expr, (∀ part ∈ expr.parts, motive part) → motive expr) (expr : Expr) :
    motive expr :=
  step expr fun part _ => induction step part
termination_by sizeOf expr
decreasing_by exact sizeOf_lt_of_mem_parts ‹_›

/-- How deep parts are nested: not at all without parts, and otherwise one level more than the
parts. -/
def nesting (expr : Expr) : Nat :=
  match (expr.parts.attach.map fun part => nesting part.1).max? with
  | none => 0
  | some deepest => deepest + 1
termination_by sizeOf expr
decreasing_by exact sizeOf_lt_of_mem_parts part.2

/-- Parts are nested less deep than the levels that suffice for the whole. -/
theorem nesting_le_iff {levels : Nat} :
    expr.nesting ≤ levels ↔ ∀ part ∈ expr.parts, part.nesting < levels := by
  rw [nesting.eq_def expr, List.attach_map_val (f := nesting)]
  cases hmax : (expr.parts.map nesting).max? with
  | none =>
      rw [List.map_eq_nil_iff.mp (List.max?_eq_none_iff.mp hmax)]
      exact iff_of_true (Nat.zero_le levels) (List.forall_mem_nil _)
  | some deepest =>
      obtain ⟨hmem, hle⟩ := List.max?_eq_some_iff.mp hmax
      constructor
      · intro h part hpart
        exact Nat.lt_of_le_of_lt (hle _ (List.mem_map_of_mem hpart)) h
      · intro h
        obtain ⟨part, hpart, rfl⟩ := List.mem_map.mp hmem
        exact h part hpart

theorem nesting_lt_of_mem_parts (h : part ∈ expr.parts) : part.nesting < expr.nesting :=
  nesting_le_iff.mp (Nat.le_refl _) part h

end Expr

/-! ## Forms of expressions -/

/-- Refuses a depth beyond the limit. -/
def Context.checkDepth (ctx : Context) (depth : Nat) : Except EvalError Unit :=
  if ctx.config.maxDepth < depth then .error (.depthExceeded ctx.config.maxDepth) else .ok ()

/-- What a variable stands for. Where it need not be bound, it is empty without a value. -/
def Context.referent (ctx : Context) (name : String) : Except EvalError Value :=
  match ctx.valueOf name with
  | .ok value => .ok value
  | .error cause => if ctx.config.strict then .error cause else .ok (.string "")

/-- A variable has the value it is bound to, or it is empty. -/
theorem Context.valueOf_of_referent {ctx : Context} {name : String} {value : Value}
    (h : ctx.referent name = .ok value) : ctx.valueOf name = .ok value ∨ value = .string "" := by
  unfold referent at h
  split at h
  · next hvalue => exact .inl (hvalue.trans h)
  · split at h <;> cases h
    exact .inr rfl

/-- The value of an operator that its first operand decides. -/
def BinaryOp.decided? (op : BinaryOp) (left : Value) : Option Value :=
  match op with
  | .or => if left.toBool then some (.boolean true) else none
  | .and => if left.toBool then none else some (.boolean false)
  | _ => none

theorem BinaryOp.eq_of_decided? {op : BinaryOp} {left result : Value}
    (h : op.decided? left = some result) :
    (op = .or ∨ op = .and) ∧ ∃ answer, result = .boolean answer := by
  unfold decided? at h
  split at h
  · split at h <;> cases h
    exact ⟨.inl rfl, true, rfl⟩
  · split at h <;> cases h
    exact ⟨.inr rfl, false, rfl⟩
  · cases h

section Forms

variable (library : Library) (ctx : Context) (depth : Nat)

theorem limited_eq_bind (outcome : Except EvalError Value) :
    (if ctx.config.maxDepth < depth then .error (.depthExceeded ctx.config.maxDepth)
      else outcome) = ctx.checkDepth depth >>= fun _ => outcome := by
  unfold Context.checkDepth
  split
  · rfl
  · rfl

theorem eval_literal (text : String) : eval library (.literal text) ctx depth = (do
    ctx.checkDepth depth
    .ok (.string text)) := by
  rw [eval, limited_eq_bind]

theorem eval_number (value : Double) : eval library (.number value) ctx depth = (do
    ctx.checkDepth depth
    .ok (.number value)) := by
  rw [eval, limited_eq_bind]

theorem eval_reference (name : String) : eval library (.reference name) ctx depth = (do
    ctx.checkDepth depth
    ctx.referent name) := by
  rw [eval, limited_eq_bind]
  rfl

theorem eval_call (name : String) (arguments : List Expr) :
    eval library (.call name arguments) ctx depth = (do
      ctx.checkDepth depth
      let function ← ctx.functionName name
      let values ← evalArguments library arguments ctx (depth + 1)
      library.call function ctx values) := by
  rw [eval, limited_eq_bind]

theorem eval_path (start : Start) (steps : List Step) :
    eval library (.path start steps) ctx depth = (do
      ctx.checkDepth depth
      let set ← evalStart library start ctx depth
      let set ← evalSteps library steps set ctx depth
      .ok (.nodes set)) := by
  rw [eval, limited_eq_bind]

theorem eval_filter (primary : Expr) (predicates : List Expr) :
    eval library (.filter primary predicates) ctx depth = (do
      ctx.checkDepth depth
      let value ← eval library primary ctx (depth + 1)
      let set ← value.nodeSet
      let kept ← evalPredicates library predicates set.nodes ctx depth
      .ok (.nodes (.ofNodes ctx.document kept))) := by
  rw [eval, limited_eq_bind]

/-- An operator is applied to its two operands, unless the first decides. -/
theorem eval_binary (op : BinaryOp) (left right : Expr) :
    eval library (.binary op left right) ctx depth = (do
      ctx.checkDepth depth
      let value ← eval library left ctx (depth + 1)
      match op.decided? value with
      | some result => .ok result
      | none => do
        let other ← eval library right ctx (depth + 1)
        op.apply ctx.document value other) := by
  cases op with
  | or =>
      rw [eval, limited_eq_bind]
      refine congrArg (ctx.checkDepth depth >>= fun _ => eval library left ctx (depth + 1) >>= ·) ?_
      funext value
      cases hvalue : value.toBool with
      | true => simp [BinaryOp.decided?, hvalue]
      | false => simp [BinaryOp.decided?, BinaryOp.apply, hvalue]
  | and =>
      rw [eval, limited_eq_bind]
      refine congrArg (ctx.checkDepth depth >>= fun _ => eval library left ctx (depth + 1) >>= ·) ?_
      funext value
      cases hvalue : value.toBool with
      | true => simp [BinaryOp.decided?, BinaryOp.apply, hvalue]
      | false => simp [BinaryOp.decided?, hvalue]
  | _ =>
      rw [eval, limited_eq_bind]
      · rfl
      · nofun
      · nofun

theorem eval_negate (operand : Expr) : eval library (.negate operand) ctx depth = (do
    ctx.checkDepth depth
    let value ← eval library operand ctx (depth + 1)
    .ok (.number (-value.toNumber ctx.document))) := by
  rw [eval, limited_eq_bind]

end Forms

end XPathTree
