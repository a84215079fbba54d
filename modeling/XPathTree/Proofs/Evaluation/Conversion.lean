import XPathTree.Proofs.Evaluation.Limit

/-!
# Conversions

An expression can be evaluated as a string, a number or a boolean, and the core library has
functions that convert their argument to these types. A call is an expression of its own, so
that its argument is evaluated one level deeper. With one level more in the limit that makes no
difference except to refusals, which tell the limit (`eval_deeper`): everywhere as many levels
are left, and a refusal tells the limit of its own context (`limit_of_eval`). What is left is
that the three functions do to their argument what the conversions do to the value of an
expression.
-/

namespace XPathTree

variable {ctx : Context} {depth limit : Nat} {expr : Expr}

/-! ## One level deeper -/

/-- What becomes of a fault with one level more in the limit: a refusal tells the new limit. -/
def EvalError.deepened (limit : Nat) (cause : EvalError) : EvalError :=
  if cause = .depthExceeded limit then .depthExceeded (limit + 1) else cause

theorem EvalError.deepened_depthExceeded (limit : Nat) :
    (EvalError.depthExceeded limit).deepened limit = .depthExceeded (limit + 1) :=
  if_pos rfl

theorem EvalError.deepened_of_ne {cause : EvalError} (h : cause ≠ .depthExceeded limit) :
    cause.deepened limit = cause :=
  if_neg h

/-- A refusal tells the limit. -/
theorem limit_of_eval {told : Nat} (h : eval .core expr ctx depth = .error (.depthExceeded told)) :
    told = ctx.config.maxDepth := by
  induction expr using Expr.induction generalizing ctx depth with
  | step expr ih =>
      rcases cause_of_eval h with raises | ⟨part, hpart, node, position, size, h⟩
      · cases raises.core with
        | depth => rfl
      · have htold : told = (ctx.focus node position size).config.maxDepth := ih part hpart h
        exact htold

/-- One level deeper under a limit of one level more, the same levels are too deep. -/
theorem checkDepth_deeper (ctx : Context) (limit depth : Nat) :
    (ctx.limited limit).checkDepth depth = .ok () ∧
        (ctx.limited (limit + 1)).checkDepth (depth + 1) = .ok () ∨
      (ctx.limited limit).checkDepth depth = .error (.depthExceeded limit) ∧
        (ctx.limited (limit + 1)).checkDepth (depth + 1) = .error (.depthExceeded (limit + 1)) := by
  have hlimit : (ctx.limited limit).config.maxDepth = limit := rfl
  have hdeeper : (ctx.limited (limit + 1)).config.maxDepth = limit + 1 := rfl
  unfold Context.checkDepth
  rw [hlimit, hdeeper]
  by_cases exceeds : limit < depth
  · exact .inr ⟨if_pos exceeds, if_pos (Nat.succ_lt_succ exceeds)⟩
  · exact .inl ⟨if_neg exceeds, if_neg fun h => exceeds (Nat.lt_of_succ_lt_succ h)⟩

theorem sameRoom_deeper (ctx : Context) (limit depth : Nat) :
    SameRoom (· = .depthExceeded limit) (ctx.limited limit) depth (ctx.limited (limit + 1))
        (depth + 1) ∧
      SameRoom (· = .depthExceeded (limit + 1)) (ctx.limited (limit + 1)) (depth + 1)
        (ctx.limited limit) depth := by
  refine ⟨fun levels => ?_, fun levels => ?_⟩
  · rw [Nat.add_right_comm depth 1 levels]
    rcases checkDepth_deeper ctx limit (depth + levels) with ⟨hhere, hdeeper⟩ | ⟨hhere, hdeeper⟩
    · rw [hhere, hdeeper]
      exact .ok rfl
    · rw [hhere]
      exact .excused rfl
  · rw [Nat.add_right_comm depth 1 levels]
    rcases checkDepth_deeper ctx limit (depth + levels) with ⟨hhere, hdeeper⟩ | ⟨hhere, hdeeper⟩
    · rw [hhere, hdeeper]
      exact .ok rfl
    · rw [hdeeper]
      exact .excused rfl

/-- With one level more in the limit an evaluation one level deeper has the same value, or the
same fault except that a refusal tells the new limit. -/
theorem eval_deeper (expr : Expr) (ctx : Context) (limit depth : Nat) :
    eval .core expr (ctx.limited (limit + 1)) (depth + 1) =
      (eval .core expr (ctx.limited limit) depth).mapError (·.deepened limit) := by
  obtain ⟨room, room'⟩ := sameRoom_deeper ctx limit depth
  have hhere := (eval_agree expr (mirrors_limited _ ctx limit (limit + 1)) room).excused_or_eq
  have hdeeper := (eval_agree expr (mirrors_limited _ ctx (limit + 1) limit) room').excused_or_eq
  rcases hhere with ⟨_, rfl, hrefused⟩ | hequal
  · rcases hdeeper with ⟨_, rfl, hrefused'⟩ | hequal
    · rw [hrefused, hrefused']
      exact congrArg Except.error (EvalError.deepened_depthExceeded limit).symm
    · -- the deeper evaluation would tell a limit that is not its own
      exact absurd (limit_of_eval (hequal.trans hrefused)) (Nat.ne_of_lt (Nat.lt_succ_self limit))
  · rw [← hequal]
    cases hresult : eval .core expr (ctx.limited limit) depth with
    | ok value => rfl
    | error cause =>
        refine congrArg Except.error (EvalError.deepened_of_ne ?_).symm
        rintro rfl
        exact absurd (limit_of_eval (hequal.symm.trans hresult))
          (Nat.ne_of_lt (Nat.lt_succ_self limit))

/-- Where an expression has room one level deeper, it is evaluated there as it is here. -/
theorem eval_succ_depth (within : depth + 1 + expr.nesting ≤ ctx.config.maxDepth) :
    eval .core expr ctx (depth + 1) = eval .core expr ctx depth := by
  have within' : depth + expr.nesting ≤ ctx.config.maxDepth := by omega
  have hhere : ctx.limited ctx.config.maxDepth = ctx := rfl
  have hlimit : eval .core expr (ctx.limited ctx.config.maxDepth) (depth + 1) =
      eval .core expr (ctx.limited (ctx.config.maxDepth + 1)) (depth + 1) := by
    refine (eval_limited_agree (Nat.le_succ _)).resolve_left ?_
    exact eval_ne_depthExceeded within
  rw [hhere, eval_deeper, hhere] at hlimit
  rw [hlimit]
  cases hresult : eval .core expr ctx depth with
  | ok value => rfl
  | error cause =>
      refine congrArg Except.error (EvalError.deepened_of_ne ?_)
      rintro rfl
      exact eval_ne_depthExceeded within' hresult

/-! ## Calls of core functions -/

theorem CoreFunction.functionName_label (f : CoreFunction) (ctx : Context) :
    ctx.functionName f.label = .ok (.core f.label) := by
  cases f <;> rfl

/-- A call that is not too deep itself calls the function with the values of its arguments. -/
theorem eval_call_core (f : CoreFunction) (arguments : List Expr)
    (within : depth ≤ ctx.config.maxDepth) :
    eval .core (.call f.label arguments) ctx depth = (do
      let values ← evalArguments .core arguments ctx (depth + 1)
      Library.core.call (.core f.label) ctx values) := by
  have hdepth : ctx.checkDepth depth = .ok () := if_neg (Nat.not_lt.mpr within)
  rw [eval_call, hdepth, f.functionName_label ctx]
  rfl

/-- A call of a core function that answers its argument. -/
theorem evaluate_call_core {f : CoreFunction} {answer : Value → Value}
    (accepts : f.arity.accepts 1 = true)
    (answers : ∀ value, f.run ctx [value] = .ok (answer value)) :
    evaluate .core (.call f.label [expr]) ctx = (eval .core expr ctx 1).map answer := by
  have hcall : ∀ value, Library.core.call (.core f.label) ctx [value] = .ok (answer value) := by
    intro value
    rw [Library.call_core]
    exact (if_pos accepts).trans (answers value)
  unfold evaluate
  rw [eval_call_core f [expr] (Nat.zero_le _)]
  cases hvalue : eval .core expr ctx 1 with
  | error cause => simp [evalArguments, hvalue, bind, Except.bind, Except.map]
  | ok value => simp [evalArguments, hvalue, bind, Except.bind, Except.map, hcall]

/-- A call of a core function that converts its argument, with one level more in the limit. -/
theorem evaluate_call_deeper {α : Type} (f : CoreFunction) (convert : Value → α)
    (wrap : α → Value) (accepts : f.arity.accepts 1 = true)
    (answers : ∀ value, f.run (ctx.limited (limit + 1)) [value] = .ok (wrap (convert value))) :
    evaluate .core (.call f.label [expr]) (ctx.limited (limit + 1)) =
      (((evaluate .core expr (ctx.limited limit)).map convert).map wrap).mapError
        (·.deepened limit) := by
  rw [evaluate_call_core accepts answers, eval_deeper, evaluate]
  cases eval .core expr (ctx.limited limit) 0 with
  | error cause => rfl
  | ok value => rfl

/-- To call `string`, `number` or `boolean` with one level more in the limit is to evaluate the
argument as a string, a number or a boolean: with the same value, or with the same fault except
that a refusal for its depth tells the limit of the call. -/
theorem evaluate_call_conversions (expr : Expr) (ctx : Context) (limit : Nat) :
    evaluate .core (.call "string" [expr]) (ctx.limited (limit + 1)) =
        ((evaluateText .core expr (ctx.limited limit)).map .string).mapError
          (·.deepened limit) ∧
      evaluate .core (.call "number" [expr]) (ctx.limited (limit + 1)) =
        ((evaluateNumber .core expr (ctx.limited limit)).map .number).mapError
          (·.deepened limit) ∧
      evaluate .core (.call "boolean" [expr]) (ctx.limited (limit + 1)) =
        ((evaluateBool .core expr (ctx.limited limit)).map .boolean).mapError
          (·.deepened limit) :=
  ⟨evaluate_call_deeper .string (·.toText ctx.document) .string rfl fun _ => rfl,
    evaluate_call_deeper .number (·.toNumber ctx.document) .number rfl fun _ => rfl,
    evaluate_call_deeper .boolean (·.toBool) .boolean rfl fun _ => rfl⟩

end XPathTree
