import XPathTree.Proofs.Evaluation.Names
import XPathTree.Proofs.Library.CoreFunction

/-!
# Where faults come from

A fault of an evaluation is one of a part, passed on as it is, or it is raised by the expression
itself (`cause_of_eval`). `Raises` lists what an expression raises by itself, with what had to
be evaluated before. So a statement on all faults needs an induction over expressions and a look
at these cases, and none at the lists of arguments, steps, predicates and nodes in between.

With the core library, a fault tells more of where it was raised (`Raises.core`): an unbound name
is one that the expression uses itself.
-/

namespace XPathTree

variable {library : Library} {ctx : Context} {depth : Nat} {cause : EvalError}

/-- A fault that an expression raises itself, once the parts in question have values. -/
inductive Raises (library : Library) (ctx : Context) (depth : Nat) :
    Expr → EvalError → Prop where
  | depth (expr : Expr) (exceeds : ctx.config.maxDepth < depth) :
      Raises library ctx depth expr (.depthExceeded ctx.config.maxDepth)
  | reference {name : String} {cause : EvalError} (h : ctx.referent name = .error cause) :
      Raises library ctx depth (.reference name) cause
  | functionName {name : String} {arguments : List Expr} {cause : EvalError}
      (h : ctx.functionName name = .error cause) :
      Raises library ctx depth (.call name arguments) cause
  | call {name : String} {arguments : List Expr} {function : FunctionName} {values : List Value}
      {cause : EvalError} (named : ctx.functionName name = .ok function)
      (valued : evalArguments library arguments ctx (depth + 1) = .ok values)
      (h : library.call function ctx values = .error cause) :
      Raises library ctx depth (.call name arguments) cause
  | start {source : Expr} {steps : List Step} {value : Value} {cause : EvalError}
      (valued : eval library source ctx (depth + 1) = .ok value)
      (h : value.nodeSet = .error cause) :
      Raises library ctx depth (.path (.nodes source) steps) cause
  | test {start : Start} {steps : List Step} {axis : Axis} {test : NodeTest}
      {predicates : List Expr} {cause : EvalError} (mem : .mk axis test predicates ∈ steps)
      (h : test.settle ctx axis = .error cause) :
      Raises library ctx depth (.path start steps) cause
  | primary {primary : Expr} {predicates : List Expr} {value : Value} {cause : EvalError}
      (valued : eval library primary ctx (depth + 1) = .ok value)
      (h : value.nodeSet = .error cause) :
      Raises library ctx depth (.filter primary predicates) cause
  | operator {op : BinaryOp} {left right : Expr} {value other : Value} {cause : EvalError}
      (valued : eval library left ctx (depth + 1) = .ok value)
      (valued' : eval library right ctx (depth + 1) = .ok other)
      (h : op.apply ctx.document value other = .error cause) :
      Raises library ctx depth (.binary op left right) cause

/-- One of some expressions fails one level deeper, at the node of the context or, as a
predicate, at some other. -/
def PartFails (library : Library) (ctx : Context) (depth : Nat) (parts : List Expr)
    (cause : EvalError) : Prop :=
  ∃ part ∈ parts, ∃ node position size,
    eval library part (ctx.focus node position size) (depth + 1) = .error cause

/-- A sequence fails in its first part or after it. -/
theorem cause_of_bind {α β : Type} {first : Except EvalError α} {rest : α → Except EvalError β}
    (h : (first >>= rest) = .error cause) :
    first = .error cause ∨ ∃ value, first = .ok value ∧ rest value = .error cause := by
  cases first with
  | error fault => exact .inl (congrArg Except.error (Except.error.inj h))
  | ok value => exact .inr ⟨value, rfl, h⟩

/-! ## Names without a meaning -/

theorem cause_of_namespaceOf {nsPrefix : String} (h : ctx.namespaceOf nsPrefix = .error cause) :
    cause = .unboundPrefix nsPrefix := by
  unfold Context.namespaceOf at h
  split at h
  · cases h
  · split at h
    · cases h
    · exact (Except.error.inj h).symm

theorem cause_of_referent {name : String} (h : ctx.referent name = .error cause) :
    cause = .unboundVariable name := by
  unfold Context.referent Context.valueOf at h
  cases hlookup : ctx.bindings.lookup name with
  | some bound =>
      rw [hlookup] at h
      cases h
  | none =>
      simp only [hlookup] at h
      split at h
      · exact (Except.error.inj h).symm
      · cases h

/-- A function goes without a name if the prefix of its written name is not bound. -/
theorem namespaceOf_of_functionName {lexical : String} (arguments : List Expr)
    (h : ctx.functionName lexical = .error cause) :
    ∃ nsPrefix ∈ (Expr.call lexical arguments).ownPrefixes,
      ctx.namespaceOf nsPrefix = .error cause := by
  unfold Context.functionName at h
  split at h
  · next before after hsplit =>
      rcases cause_of_bind h with h | ⟨_, _, h⟩
      · exact ⟨String.ofList before, by simp [Expr.ownPrefixes, hsplit], h⟩
      · cases h
  · cases h

theorem cause_of_functionName {lexical : String} (h : ctx.functionName lexical = .error cause) :
    ∃ nsPrefix, cause = .unboundPrefix nsPrefix := by
  obtain ⟨nsPrefix, _, h⟩ := namespaceOf_of_functionName [] h
  exact ⟨nsPrefix, cause_of_namespaceOf h⟩

/-- A test cannot be settled if a prefix of it is not bound. -/
theorem namespaceOf_of_settle {test : NodeTest} {axis : Axis}
    (h : test.settle ctx axis = .error cause) :
    ∃ nsPrefix ∈ test.prefixes, ctx.namespaceOf nsPrefix = .error cause := by
  cases test with
  | anyIn nsPrefix =>
      rcases cause_of_bind h with h | ⟨_, _, h⟩
      · exact ⟨nsPrefix, List.mem_singleton_self _, h⟩
      · cases h
  | name nsPrefix localPart =>
      cases nsPrefix with
      | none => cases h
      | some nsPrefix =>
          rcases cause_of_bind h with h | ⟨_, _, h⟩
          · unfold NodeTest.settleName at h
            split at h
            · cases h
            · next hcause =>
                split at h
                · obtain rfl := Except.error.inj h
                  exact ⟨nsPrefix, List.mem_singleton_self _, hcause⟩
                · cases h
          · cases h
  | _ => cases h

theorem cause_of_settle {test : NodeTest} {axis : Axis} (h : test.settle ctx axis = .error cause) :
    ∃ nsPrefix, cause = .unboundPrefix nsPrefix := by
  obtain ⟨nsPrefix, _, h⟩ := namespaceOf_of_settle h
  exact ⟨nsPrefix, cause_of_namespaceOf h⟩

/-! ## Passing on -/

theorem PartFails.mono {parts parts' : List Expr} (h : PartFails library ctx depth parts cause)
    (hsubset : parts ⊆ parts') : PartFails library ctx depth parts' cause := by
  obtain ⟨part, hpart, hfails⟩ := h
  exact ⟨part, hsubset hpart, hfails⟩

/-- A part that is evaluated in the context itself. -/
theorem partFails_of_eval {part : Expr} {parts : List Expr} (hpart : part ∈ parts)
    (h : eval library part ctx (depth + 1) = .error cause) :
    PartFails library ctx depth parts cause :=
  ⟨part, hpart, ctx.node, ctx.position, ctx.size, h⟩

theorem cause_of_evalArguments {arguments : List Expr}
    (h : evalArguments library arguments ctx (depth + 1) = .error cause) :
    PartFails library ctx depth arguments cause := by
  induction arguments with
  | nil => cases h
  | cons argument rest ih =>
      rcases cause_of_bind h with h | ⟨_, _, h⟩
      · exact partFails_of_eval List.mem_cons_self h
      · rcases cause_of_bind h with h | ⟨_, _, h⟩
        · exact (ih h).mono (List.subset_cons_self _ _)
        · cases h

theorem cause_of_keepWhere {keep : NodeId → Nat → Except EvalError Bool} {position : Nat}
    {nodes : List NodeId} (h : keepWhere keep position nodes = .error cause) :
    ∃ node position, keep node position = .error cause := by
  induction nodes generalizing position with
  | nil => cases h
  | cons node nodes ih =>
      rcases cause_of_bind h with h | ⟨_, _, h⟩
      · exact ⟨node, position, h⟩
      · rcases cause_of_bind h with h | ⟨_, _, h⟩
        · exact ih h
        · cases h

theorem cause_of_selectEach {select : NodeId → Except EvalError (List NodeId)}
    {nodes : List NodeId} (h : selectEach select nodes = .error cause) :
    ∃ node, select node = .error cause := by
  induction nodes with
  | nil => cases h
  | cons node nodes ih =>
      rcases cause_of_bind h with h | ⟨_, _, h⟩
      · exact ⟨node, h⟩
      · rcases cause_of_bind h with h | ⟨_, _, h⟩
        · exact ih h
        · cases h

theorem cause_of_evalPredicates {predicates : List Expr} {nodes : List NodeId}
    (h : evalPredicates library predicates nodes ctx depth = .error cause) :
    PartFails library ctx depth predicates cause := by
  induction predicates generalizing nodes with
  | nil => cases h
  | cons predicate rest ih =>
      rcases cause_of_bind h with h | ⟨_, _, h⟩
      · obtain ⟨node, position, h⟩ := cause_of_keepWhere h
        rcases cause_of_bind h with h | ⟨_, _, h⟩
        · exact ⟨predicate, List.mem_cons_self, node, position, _, h⟩
        · cases h
      · exact (ih h).mono (List.subset_cons_self _ _)

theorem cause_of_evalStep {step : Step} {set : NodeSet}
    (h : evalStep library step set ctx depth = .error cause) :
    (∃ axis test predicates, step = .mk axis test predicates ∧
        test.settle ctx axis = .error cause) ∨
      PartFails library ctx depth step.predicates cause := by
  obtain ⟨axis, test, predicates⟩ := step
  rcases cause_of_bind h with h | ⟨settled, _, h⟩
  · exact .inl ⟨axis, test, predicates, rfl, h⟩
  · rcases cause_of_bind h with h | ⟨_, _, h⟩
    · obtain ⟨node, h⟩ := cause_of_selectEach h
      exact .inr (cause_of_evalPredicates h)
    · cases h

theorem cause_of_evalSteps {steps : List Step} {set : NodeSet}
    (h : evalSteps library steps set ctx depth = .error cause) :
    (∃ axis test predicates, .mk axis test predicates ∈ steps ∧
        test.settle ctx axis = .error cause) ∨
      PartFails library ctx depth (steps.flatMap Step.predicates) cause := by
  induction steps generalizing set with
  | nil => cases h
  | cons step rest ih =>
      rcases cause_of_bind h with h | ⟨_, _, h⟩
      · rcases cause_of_evalStep h with ⟨axis, test, predicates, rfl, hsettle⟩ | h
        · exact .inl ⟨axis, test, predicates, List.mem_cons_self, hsettle⟩
        · exact .inr (h.mono (List.subset_append_left _ _))
      · rcases ih h with ⟨axis, test, predicates, hmem, h⟩ | h
        · exact .inl ⟨axis, test, predicates, List.mem_cons_of_mem step hmem, h⟩
        · exact .inr (h.mono (List.subset_append_right _ _))

theorem cause_of_checkDepth (h : ctx.checkDepth depth = .error cause) :
    ctx.config.maxDepth < depth ∧ cause = .depthExceeded ctx.config.maxDepth := by
  unfold Context.checkDepth at h
  split at h
  · next exceeds => exact ⟨exceeds, (Except.error.inj h).symm⟩
  · cases h

/-! ## All expressions -/

/-- What fails after the depth has been looked at, or is too deep. -/
theorem raises_or_of_checked {expr : Expr} {outcome : Except EvalError Value}
    (h : (ctx.checkDepth depth >>= fun _ => outcome) = .error cause)
    (hcause : outcome = .error cause →
      Raises library ctx depth expr cause ∨ PartFails library ctx depth expr.parts cause) :
    Raises library ctx depth expr cause ∨ PartFails library ctx depth expr.parts cause := by
  rcases cause_of_bind h with h | ⟨_, _, h⟩
  · obtain ⟨exceeds, rfl⟩ := cause_of_checkDepth h
    exact .inl (.depth expr exceeds)
  · exact hcause h

/-- A fault is raised by the expression itself or is one of its parts. -/
theorem cause_of_eval {expr : Expr} (h : eval library expr ctx depth = .error cause) :
    Raises library ctx depth expr cause ∨ PartFails library ctx depth expr.parts cause := by
  cases expr with
  | literal text =>
      rw [eval_literal] at h
      exact raises_or_of_checked h nofun
  | number value =>
      rw [eval_number] at h
      exact raises_or_of_checked h nofun
  | reference name =>
      rw [eval_reference] at h
      exact raises_or_of_checked h fun h => .inl (.reference h)
  | call name arguments =>
      rw [eval_call] at h
      refine raises_or_of_checked h fun h => ?_
      rcases cause_of_bind h with h | ⟨function, named, h⟩
      · exact .inl (.functionName h)
      · rcases cause_of_bind h with h | ⟨values, valued, h⟩
        · exact .inr (cause_of_evalArguments h)
        · exact .inl (.call named valued h)
  | path start steps =>
      rw [eval_path] at h
      refine raises_or_of_checked h fun h => ?_
      -- at the start, or at one of the steps
      rcases cause_of_bind h with h | ⟨set, _, h⟩
      · cases start with
        | context | root => cases h
        | nodes source =>
            rcases cause_of_bind h with h | ⟨value, valued, h⟩
            · exact .inr (partFails_of_eval List.mem_cons_self h)
            · exact .inl (.start valued h)
      · rcases cause_of_bind h with h | ⟨_, _, h⟩
        · rcases cause_of_evalSteps h with ⟨axis, test, predicates, hmem, h⟩ | h
          · exact .inl (.test hmem h)
          · exact .inr (h.mono (List.subset_append_right _ _))
        · cases h
  | filter primary predicates =>
      rw [eval_filter] at h
      refine raises_or_of_checked h fun h => ?_
      rcases cause_of_bind h with h | ⟨value, valued, h⟩
      · exact .inr (partFails_of_eval List.mem_cons_self h)
      · rcases cause_of_bind h with h | ⟨set, _, h⟩
        · exact .inl (.primary valued h)
        · rcases cause_of_bind h with h | ⟨_, _, h⟩
          · exact .inr ((cause_of_evalPredicates h).mono (List.subset_cons_self _ _))
          · cases h
  | binary op left right =>
      rw [eval_binary] at h
      refine raises_or_of_checked h fun h => ?_
      rcases cause_of_bind h with h | ⟨value, valued, h⟩
      · exact .inr (partFails_of_eval List.mem_cons_self h)
      · split at h
        · cases h
        · rcases cause_of_bind h with h | ⟨other, valued', h⟩
          · exact .inr (partFails_of_eval (List.mem_cons_of_mem _ List.mem_cons_self) h)
          · exact .inl (.operator valued valued' h)
  | negate operand =>
      rw [eval_negate] at h
      refine raises_or_of_checked h fun h => ?_
      rcases cause_of_bind h with h | ⟨_, _, h⟩
      · exact .inr (partFails_of_eval List.mem_cons_self h)
      · cases h

/-! ## Faults with the core library -/

theorem cause_of_nodeSet {value : Value} (h : value.nodeSet = .error cause) :
    ∃ fault, cause = .typeFault fault := by
  cases value with
  | nodes set => cases h
  | string | number | boolean => exact ⟨_, (Except.error.inj h).symm⟩

/-- Operators fail for the types of their operands alone. -/
theorem cause_of_apply {op : BinaryOp} {doc : Document} {left right : Value}
    (h : op.apply doc left right = .error cause) : ∃ fault, cause = .typeFault fault := by
  cases op with
  | union =>
      cases left <;> cases right
      case nodes.nodes => cases h
      all_goals exact ⟨_, (Except.error.inj h).symm⟩
  | _ => cases h

/-- What an expression raises itself with the core library: it is too deep, a name of its own is
unbound, or it has no use for the arguments or operands that it has. -/
inductive CoreRaises (ctx : Context) (depth : Nat) (expr : Expr) : EvalError → Prop where
  | depth (exceeds : ctx.config.maxDepth < depth) :
      CoreRaises ctx depth expr (.depthExceeded ctx.config.maxDepth)
  | unboundVariable {name : String} (mem : name ∈ expr.ownVariableNames)
      (h : ctx.referent name = .error (.unboundVariable name)) :
      CoreRaises ctx depth expr (.unboundVariable name)
  | unboundPrefix {nsPrefix : String} (mem : nsPrefix ∈ expr.ownPrefixes)
      (h : ctx.namespaceOf nsPrefix = .error (.unboundPrefix nsPrefix)) :
      CoreRaises ctx depth expr (.unboundPrefix nsPrefix)
  | unknownFunction (name : FunctionName) : CoreRaises ctx depth expr (.unknownFunction name)
  | argumentCount (function : FunctionName) (expected : Arity) (found : Nat) :
      CoreRaises ctx depth expr (.argumentCount function expected found)
  | typeFault (fault : TypeFault) : CoreRaises ctx depth expr (.typeFault fault)

theorem CoreRaises.of_namespaceOf {expr : Expr} {nsPrefix : String}
    (mem : nsPrefix ∈ expr.ownPrefixes) (h : ctx.namespaceOf nsPrefix = .error cause) :
    CoreRaises ctx depth expr cause := by
  obtain rfl := cause_of_namespaceOf h
  exact .unboundPrefix mem h

theorem Raises.core {expr : Expr} (raises : Raises .core ctx depth expr cause) :
    CoreRaises ctx depth expr cause := by
  cases raises with
  | depth expr exceeds => exact .depth exceeds
  | reference h =>
      obtain rfl := cause_of_referent h
      exact .unboundVariable (List.mem_singleton_self _) h
  | @functionName _ arguments _ h =>
      obtain ⟨nsPrefix, mem, h⟩ := namespaceOf_of_functionName arguments h
      exact .of_namespaceOf mem h
  | @call _ _ function values _ _ _ h =>
      rcases Library.call_core_answers function ctx values with hcall | ⟨f, rfl, hanswers⟩
      · cases hcall.symm.trans h
        exact .unknownFunction function
      · rw [h] at hanswers
        cases hanswers with
        | refusedCount => exact .argumentCount ..
        | refusedArgument => exact .typeFault _
  | start _ h | primary _ h =>
      obtain ⟨fault, rfl⟩ := cause_of_nodeSet h
      exact .typeFault fault
  | test mem h =>
      obtain ⟨nsPrefix, hprefix, h⟩ := namespaceOf_of_settle h
      exact .of_namespaceOf (List.mem_flatMap_of_mem mem hprefix) h
  | operator _ _ h =>
      obtain ⟨fault, rfl⟩ := cause_of_apply h
      exact .typeFault fault

end XPathTree
