import XPathTree.Proofs.Document.History
import XPathTree.Proofs.Evaluation.Fault
import XPathTree.Proofs.Mirror.Evaluation

/-!
# Unbound names

Strictness is asked about in two places: where a reference finds its variable unbound, and where
the name test of a step finds its prefix unbound. In both the strict evaluation fails. So a
lenient evaluation runs along a strict one for as long as that does not fail for an unbound name,
even if the strict one has more variables bound, as long as they are bound to the empty string,
which is what they stand for without a binding (`eval_lenient`). A strict evaluation that has all
names of its expression bound does not fail in this way at all, since the names of what it
evaluates are among them (`unbound_of_eval`).
-/

namespace XPathTree

variable {ctx : Context} {depth : Nat} {expr : Expr} {cause : EvalError} {names : List String}

/-- A name has been used without a binding. -/
def EvalError.IsUnbound : EvalError → Prop
  | .unboundVariable _ | .unboundPrefix _ => True
  | _ => False

namespace Context

/-- The same context, where names have to be bound or need not be. -/
def withStrict (ctx : Context) (strict : Bool) : Context :=
  { ctx with config := { ctx.config with strict } }

/-- The same context with the variables among some names bound to the empty string that are not
bound yet. -/
def completed (ctx : Context) (names : List String) : Context :=
  let missing := names.filter fun name => (ctx.bindings.lookup name).isNone
  { ctx with bindings := ctx.bindings ++ missing.map fun name => (name, .string "") }

/-! ## What variables stand for -/

/-- Where names need not be bound, every variable stands for something. -/
theorem referent_lenient (ctx : Context) (name : String) :
    (ctx.withStrict false).referent name =
      .ok ((ctx.bindings.lookup name).getD (.string "")) := by
  have hbindings : (ctx.withStrict false).bindings = ctx.bindings := rfl
  unfold referent valueOf
  rw [hbindings]
  cases ctx.bindings.lookup name with
  | none => rfl
  | some value => rfl

theorem lookup_empties (names : List String) (name : String) :
    (names.map fun name => (name, Value.string "")).lookup name =
      if name ∈ names then some (.string "") else none := by
  induction names with
  | nil => rfl
  | cons head names ih =>
      rw [List.map_cons, List.lookup_cons, ih]
      by_cases hhead : name = head
      · simp [hhead]
      · simp [hhead, beq_false_of_ne hhead]

/-- With some names completed, a variable stands for what it stands for where names need not be
bound, unless it is unbound and not among those names. -/
theorem referent_completed (ctx : Context) (names : List String) (name : String) :
    ((ctx.completed names).withStrict true).referent name =
      if name ∈ names ∨ (ctx.bindings.lookup name).isSome then
        (ctx.withStrict false).referent name
      else .error (.unboundVariable name) := by
  rw [referent_lenient]
  unfold referent valueOf withStrict completed
  rw [List.lookup_append, lookup_empties]
  cases hlookup : ctx.bindings.lookup name with
  | some value => simp
  | none => by_cases hname : name ∈ names <;> simp [hname, hlookup]

theorem completed_nil (ctx : Context) : ctx.completed [] = ctx := by
  simp [completed]

end Context

/-! ## Strict beside lenient -/

/-- Unless its prefix has to be bound and is not, a name asks the same. -/
theorem settleName_agree (ctx : Context) (nsPrefix localPart : String) :
    Agree EvalError.IsUnbound Eq
      (NodeTest.settleName (ctx.withStrict true) nsPrefix localPart)
      (NodeTest.settleName (ctx.withStrict false) nsPrefix localPart) := by
  have hsame : (ctx.withStrict true).namespaceOf nsPrefix =
      (ctx.withStrict false).namespaceOf nsPrefix := rfl
  unfold NodeTest.settleName
  rw [hsame]
  cases hbound : (ctx.withStrict false).namespaceOf nsPrefix with
  | ok uri => exact .ok rfl
  | error cause =>
      obtain rfl := cause_of_namespaceOf hbound
      exact .excused trivial

theorem settle_agree (ctx : Context) (axis : Axis) (test : NodeTest) :
    Agree EvalError.IsUnbound Eq (test.settle (ctx.withStrict true) axis)
      (test.settle (ctx.withStrict false) axis) := by
  cases test with
  | name nsPrefix localPart =>
      cases nsPrefix with
      | none => exact .ok rfl
      | some nsPrefix =>
          refine .bind (settleName_agree ctx nsPrefix localPart) fun test test' heq => .ok ?_
          rw [heq]
  | _ => exact .refl fun _ _ => rfl

/-- A strict context with some names completed offers what the lenient one does, but for the
names that are unbound. -/
theorem mirrors_lenient (ctx : Context) (names : List String) :
    ((ctx.completed names).withStrict true).Mirrors EvalError.IsUnbound Eq
      (ctx.withStrict false) where
  document := .refl ctx.document
  node := rfl
  position := rfl
  size := rfl
  referent name := by
    rw [Context.referent_completed]
    split
    · exact .refl fun value _ => .refl value
    · exact .excused trivial
  functionName _ := .refl fun _ _ => rfl
  settle axis test := settle_agree (ctx.completed names) axis test

/-- A strict evaluation with some names completed fails for an unbound name, or it gives what the
lenient evaluation gives. -/
theorem eval_lenient (expr : Expr) (ctx : Context) (names : List String) (depth : Nat) :
    (∃ cause : EvalError, cause.IsUnbound ∧
        eval .core expr ((ctx.completed names).withStrict true) depth = .error cause) ∨
      eval .core expr ((ctx.completed names).withStrict true) depth =
        eval .core expr (ctx.withStrict false) depth :=
  (eval_agree expr (mirrors_lenient ctx names) fun _ => .refl fun _ _ => rfl).excused_or_eq

/-! ## Where unbound names come from -/

/-- An unbound name is one of the expression. -/
theorem unbound_of_eval (h : eval .core expr ctx depth = .error cause)
    (unbound : cause.IsUnbound) :
    (∃ name ∈ expr.variableNames, ctx.referent name = .error cause) ∨
      ∃ nsPrefix ∈ expr.prefixes, ctx.namespaceOf nsPrefix = .error cause := by
  induction expr using Expr.induction generalizing ctx depth with
  | step expr ih =>
      rcases cause_of_eval h with raises | ⟨part, hpart, node, position, size, h⟩
      · cases raises.core with
        | unboundVariable mem hname => exact .inl ⟨_, Expr.own_subset mem, hname⟩
        | unboundPrefix mem hprefix => exact .inr ⟨_, Expr.own_subset mem, hprefix⟩
        | depth | unknownFunction | argumentCount | typeFault => exact unbound.elim
      -- at other nodes, names have the same meaning
      · rcases ih part hpart h with ⟨name, mem, h⟩ | ⟨nsPrefix, mem, h⟩
        · exact .inl ⟨name, Expr.flatMap_inside_subset hpart mem, h⟩
        · exact .inr ⟨nsPrefix, Expr.flatMap_inside_subset hpart mem, h⟩

/-- A lenient evaluation has no use for the bindings of variables that are missing. -/
theorem eval_lenient_ne_unboundVariable (name : String) :
    eval .core expr (ctx.withStrict false) depth ≠ .error (.unboundVariable name) := by
  intro h
  rcases unbound_of_eval h trivial with ⟨other, _, hreferent⟩ | ⟨nsPrefix, _, hprefix⟩
  · rw [Context.referent_lenient] at hreferent
    cases hreferent
  · cases cause_of_namespaceOf hprefix

/-- With all variables of the expression completed and all its prefixes bound, no name is
unbound. -/
theorem not_unbound_of_completed
    (bound : ∀ nsPrefix ∈ expr.prefixes, ∃ uri, ctx.namespaceOf nsPrefix = .ok uri)
    (h : eval .core expr ((ctx.completed expr.variableNames).withStrict true) depth = .error cause) :
    ¬ cause.IsUnbound := by
  intro unbound
  rcases unbound_of_eval h unbound with ⟨name, hname, hreferent⟩ | ⟨nsPrefix, hmem, hprefix⟩
  · rw [Context.referent_completed, if_pos (.inl hname), Context.referent_lenient] at hreferent
    cases hreferent
  · obtain ⟨uri, huri⟩ := bound nsPrefix hmem
    cases huri.symm.trans hprefix

/-- A lenient evaluation gives what the strict one gives, unless that fails for an unbound name.
It never fails for an unbound variable. And where the prefixes of the expression are bound, it
gives what the strict one gives when each of its variables without a binding is bound to the empty
string. -/
theorem evaluate_lenient (expr : Expr) (ctx : Context) :
    ((∀ cause, evaluate .core expr (ctx.withStrict true) = .error cause → ¬ cause.IsUnbound) →
      evaluate .core expr (ctx.withStrict false) =
        evaluate .core expr (ctx.withStrict true)) ∧
    (∀ name, evaluate .core expr (ctx.withStrict false) ≠ .error (.unboundVariable name)) ∧
    ((∀ nsPrefix ∈ expr.prefixes, ∃ uri, ctx.namespaceOf nsPrefix = .ok uri) →
      evaluate .core expr (ctx.withStrict false) =
        evaluate .core expr ((ctx.completed expr.variableNames).withStrict true)) := by
  refine ⟨fun resolved => ?_, fun name => eval_lenient_ne_unboundVariable name, fun bound => ?_⟩
  · have hagree := eval_lenient expr ctx [] 0
    rw [Context.completed_nil] at hagree
    rcases hagree with ⟨cause, unbound, h⟩ | h
    · exact absurd unbound (resolved cause h)
    · exact h.symm
  · rcases eval_lenient expr ctx expr.variableNames 0 with ⟨cause, unbound, h⟩ | h
    · exact absurd unbound (not_unbound_of_completed bound h)
    · exact h.symm

/-- A variable without a binding, beside a name test with a bound prefix that an element passes.
Once the variable is bound to the empty string, strictness makes no difference. -/
theorem evaluate_lenient_variable :
    let doc := Document.empty.run [.createElement ⟨some "p", "e", some "u"⟩ []]
    let ctx := { Context.ofNode doc ⟨1⟩ with prefixes := [("q", "u")] }
    let isNamed := Expr.path .context [.mk .self (.name (some "q") "e") []]
    let expr := Expr.binary .and (.binary .equal (.reference "v") (.literal "")) isNamed
    evaluate .core expr (ctx.withStrict true) = .error (.unboundVariable "v") ∧
      (∀ nsPrefix ∈ expr.prefixes, ∃ uri, ctx.namespaceOf nsPrefix = .ok uri) ∧
      evaluate .core expr (ctx.withStrict false) = .ok (.boolean true) ∧
      evaluate .core expr ((ctx.completed ["v"]).withStrict true) = .ok (.boolean true) ∧
      evaluate .core expr ((ctx.completed ["v"]).withStrict false) = .ok (.boolean true) := by
  intro doc ctx isNamed expr
  have hprefixes : expr.prefixes = ["q"] := by
    simp [Expr.prefixes, Expr.inside_eq, Expr.parts, Start.parts, Step.predicates,
      Expr.ownPrefixes, Step.test, NodeTest.prefixes, expr, isNamed]
  have hvariables : expr.variableNames = ["v"] := by
    simp [Expr.variableNames, Expr.inside_eq, Expr.parts, Start.parts, Step.predicates,
      Expr.ownVariableNames, expr, isNamed]
  have bound : ∀ nsPrefix ∈ expr.prefixes, ∃ uri, ctx.namespaceOf nsPrefix = .ok uri := by
    rw [hprefixes]
    exact List.forall_mem_singleton.mpr ⟨"u", rfl⟩
  have hlenient : evaluate .core expr (ctx.withStrict false) = .ok (.boolean true) := by
    decide +kernel
  have hcompleted := (evaluate_lenient expr ctx).2.2 bound
  rw [hlenient, hvariables] at hcompleted
  have hresolved := (evaluate_lenient expr (ctx.completed ["v"])).1 fun cause h => by
    cases hcompleted.trans h
  exact ⟨by decide +kernel, bound, hlenient, hcompleted.symm, hresolved.trans hcompleted.symm⟩

end XPathTree
