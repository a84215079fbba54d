import XPathTree.Proofs.Document.Invariant
import XPathTree.Proofs.Evaluation.Fault
import XPathTree.Proofs.Evaluation.Selection

/-!
# Types of expressions

The head of an expression settles the type of its value: every operator and core function gives
values of one type, and a variable has the type of what it is bound to (`type_of_eval`). Node-sets
are demanded in few places: of what is filtered, of what a path starts from, of the operands of a
union, and of the arguments of five functions. An expression that has the right types in these
places, in itself and in everything inside it, is well typed. Its evaluation may fail, but never
for the type of a value (`evaluate_typed`).
-/

namespace XPathTree

/-- The type of what an operator gives. -/
def BinaryOp.resultType : BinaryOp → ValueType
  | .or | .and | .equal | .unequal | .less | .lessOrEqual | .greater | .greaterOrEqual => .boolean
  | .add | .subtract | .multiply | .divide | .modulo => .number
  | .union => .nodes

/-- The core function that a written name calls. -/
def CoreFunction.named? (name : String) : Option CoreFunction := all.find? (·.label == name)

theorem CoreFunction.named?_label (f : CoreFunction) : named? f.label = some f := by
  cases f <;> decide

namespace Expr

/-- The type of the values of an expression under bindings of variables. A call has one if it
calls a core function. -/
def staticType (bindings : List (String × Value)) : Expr → Option ValueType
  | .literal _ => some .string
  | .number _ | .negate _ => some .number
  | .reference name => some (((bindings.lookup name).map (·.type)).getD .string)
  | .call name _ => (CoreFunction.named? name).map (·.resultType)
  | .path .. | .filter .. => some .nodes
  | .binary op .. => some op.resultType

/-- The expression calls core functions only, and it has node-sets where it demands them; what
is inside its parts is not looked at. -/
def Fits (bindings : List (String × Value)) : Expr → Prop
  | .call name arguments => ∃ f, CoreFunction.named? name = some f ∧
      (f.takesNodeSets = true → ∀ argument ∈ arguments, argument.staticType bindings = some .nodes)
  | .path (.nodes source) _ => source.staticType bindings = some .nodes
  | .filter primary _ => primary.staticType bindings = some .nodes
  | .binary .union left right =>
      left.staticType bindings = some .nodes ∧ right.staticType bindings = some .nodes
  | _ => True

/-- The expression and everything inside it fits. -/
inductive WellTyped (bindings : List (String × Value)) : Expr → Prop where
  | intro {expr : Expr} (fits : expr.Fits bindings)
      (parts : ∀ part ∈ expr.parts, WellTyped bindings part) : WellTyped bindings expr

variable {bindings : List (String × Value)} {expr left right : Expr}

theorem Fits.wellTyped_of_no_parts (fits : expr.Fits bindings) (h : expr.parts = []) :
    expr.WellTyped bindings := by
  refine .intro fits fun part hpart => ?_
  rw [h] at hpart
  cases hpart

theorem WellTyped.binary {op : BinaryOp} (fits : (Expr.binary op left right).Fits bindings)
    (hleft : left.WellTyped bindings) (hright : right.WellTyped bindings) :
    (Expr.binary op left right).WellTyped bindings :=
  .intro fits (List.forall_mem_cons.mpr ⟨hleft, List.forall_mem_singleton.mpr hright⟩)

theorem exists_staticType (fits : expr.Fits bindings) :
    ∃ type, expr.staticType bindings = some type := by
  cases expr with
  | call name arguments =>
      obtain ⟨f, hnamed, _⟩ := fits
      exact ⟨f.resultType, congrArg (Option.map _) hnamed⟩
  | _ => exact ⟨_, rfl⟩

end Expr

variable {library : Library} {ctx : Context} {depth : Nat} {expr : Expr} {value : Value}

/-! ## Values have their static type -/

theorem type_of_apply {op : BinaryOp} {doc : Document} {left right : Value}
    (h : op.apply doc left right = .ok value) : value.type = op.resultType := by
  cases op with
  | union =>
      obtain ⟨a, _, h⟩ := exists_of_bind_ok h
      obtain ⟨b, _, h⟩ := exists_of_bind_ok h
      cases h
      rfl
  | _ =>
      cases h
      rfl

/-- Only a name without a prefix is expanded to that of a core function. -/
theorem eq_of_functionName {lexical label : String}
    (h : ctx.functionName lexical = .ok (.core label)) : lexical = label := by
  unfold Context.functionName at h
  split at h
  · obtain ⟨uri, _, h⟩ := exists_of_bind_ok h
    cases h
  · exact congrArg FunctionName.localName (Except.ok.inj h)

theorem type_of_referent {name : String} (h : ctx.referent name = .ok value) :
    ((ctx.bindings.lookup name).map (·.type)).getD .string = value.type := by
  unfold Context.referent Context.valueOf at h
  cases hlookup : ctx.bindings.lookup name with
  | some bound =>
      rw [hlookup] at h
      cases h
      rfl
  | none =>
      simp only [hlookup] at h
      split at h
      · cases h
      · cases h
        rfl

/-- With the core library, the values of an expression have its type. -/
theorem type_of_eval (h : eval .core expr ctx depth = .ok value) :
    expr.staticType ctx.bindings = some value.type := by
  cases expr with
  | literal text =>
      rw [eval_literal] at h
      obtain ⟨_, _, h⟩ := exists_of_bind_ok h
      cases h
      rfl
  | number found =>
      rw [eval_number] at h
      obtain ⟨_, _, h⟩ := exists_of_bind_ok h
      cases h
      rfl
  | reference name =>
      rw [eval_reference] at h
      obtain ⟨_, _, h⟩ := exists_of_bind_ok h
      exact congrArg some (type_of_referent h)
  | call name arguments =>
      rw [eval_call] at h
      obtain ⟨_, _, h⟩ := exists_of_bind_ok h
      obtain ⟨function, hfunction, h⟩ := exists_of_bind_ok h
      obtain ⟨values, _, h⟩ := exists_of_bind_ok h
      obtain ⟨f, rfl, hrun⟩ := Library.exists_run_of_call_core h
      obtain rfl := eq_of_functionName hfunction
      rw [CoreFunction.type_of_run hrun, Expr.staticType, f.named?_label]
      rfl
  | path start steps =>
      rw [eval_path] at h
      obtain ⟨_, _, h⟩ := exists_of_bind_ok h
      obtain ⟨_, _, h⟩ := exists_of_bind_ok h
      obtain ⟨_, _, h⟩ := exists_of_bind_ok h
      cases h
      rfl
  | filter primary predicates =>
      rw [eval_filter] at h
      obtain ⟨_, _, h⟩ := exists_of_bind_ok h
      obtain ⟨_, _, h⟩ := exists_of_bind_ok h
      obtain ⟨_, _, h⟩ := exists_of_bind_ok h
      obtain ⟨_, _, h⟩ := exists_of_bind_ok h
      cases h
      rfl
  | binary op left right =>
      rw [eval_binary] at h
      obtain ⟨_, _, h⟩ := exists_of_bind_ok h
      obtain ⟨_, _, h⟩ := exists_of_bind_ok h
      split at h
      · next hdecided =>
          cases h
          obtain ⟨rfl | rfl, _, rfl⟩ := BinaryOp.eq_of_decided? hdecided
          · rfl
          · rfl
      · obtain ⟨_, _, h⟩ := exists_of_bind_ok h
        exact congrArg some (type_of_apply h).symm
  | negate operand =>
      rw [eval_negate] at h
      obtain ⟨_, _, h⟩ := exists_of_bind_ok h
      obtain ⟨_, _, h⟩ := exists_of_bind_ok h
      cases h
      rfl

/-! ## No faults of types -/

theorem exists_eval_of_evalArguments {arguments : List Expr} {values : List Value}
    (h : evalArguments library arguments ctx depth = .ok values) :
    ∀ value ∈ values, ∃ argument ∈ arguments, eval library argument ctx depth = .ok value := by
  induction arguments generalizing values with
  | nil =>
      cases h
      exact List.forall_mem_nil _
  | cons argument rest ih =>
      obtain ⟨first, hfirst, h⟩ := exists_of_bind_ok h
      obtain ⟨others, hothers, h⟩ := exists_of_bind_ok h
      cases h
      refine List.forall_mem_cons.mpr
        ⟨⟨argument, List.mem_cons_self, hfirst⟩, fun value hvalue => ?_⟩
      obtain ⟨other, hother, heval⟩ := ih hothers value hvalue
      exact ⟨other, List.mem_cons_of_mem _ hother, heval⟩

/-- An expression of the type of node-sets has node-sets as values. -/
theorem exists_nodes_of_eval (typed : expr.staticType ctx.bindings = some .nodes)
    (h : eval .core expr ctx depth = .ok value) : ∃ set, value = .nodes set := by
  have htype : some ValueType.nodes = some value.type := typed.symm.trans (type_of_eval h)
  cases value with
  | nodes set => exact ⟨set, rfl⟩
  | string | number | boolean => cases htype

/-- What an expression raises itself, if it fits, is no fault of types. -/
theorem not_raises_typeFault {fault : TypeFault} (fits : expr.Fits ctx.bindings) :
    ¬ Raises .core ctx depth expr (.typeFault fault) := by
  generalize hcause : EvalError.typeFault fault = cause
  intro raises
  cases raises with
  | depth => cases hcause
  | reference h => cases hcause.trans (cause_of_referent h)
  | functionName h =>
      obtain ⟨_, h⟩ := cause_of_functionName h
      cases hcause.trans h
  | @call name arguments function values _ named valued h =>
      subst hcause
      rcases Library.call_core_answers function ctx values with hcall | ⟨f, rfl, hanswers⟩
      · cases hcall.symm.trans h
      · rw [h] at hanswers
        cases hanswers with
        | refusedArgument takes mem other =>
            -- the refused value is that of an argument, which is typed as a node-set
            obtain rfl := eq_of_functionName named
            obtain ⟨g, hnamed, hsets⟩ := fits
            obtain rfl := Option.some.inj (f.named?_label.symm.trans hnamed)
            obtain ⟨argument, hargument, heval⟩ := exists_eval_of_evalArguments valued _ mem
            obtain ⟨set, rfl⟩ := exists_nodes_of_eval (hsets takes argument hargument) heval
            exact other rfl
  | start valued h =>
      obtain ⟨set, rfl⟩ := exists_nodes_of_eval fits valued
      cases h
  | test mem h =>
      obtain ⟨_, h⟩ := cause_of_settle h
      cases hcause.trans h
  | primary valued h =>
      obtain ⟨set, rfl⟩ := exists_nodes_of_eval fits valued
      cases h
  | @operator op _ _ _ _ _ valued valued' h =>
      cases op with
      | union =>
          obtain ⟨set, rfl⟩ := exists_nodes_of_eval fits.1 valued
          obtain ⟨set', rfl⟩ := exists_nodes_of_eval fits.2 valued'
          cases h
      | _ => cases h

theorem eval_ne_typeFault {fault : TypeFault} (typed : expr.WellTyped ctx.bindings) :
    eval .core expr ctx depth ≠ .error (.typeFault fault) := by
  induction expr using Expr.induction generalizing ctx depth with
  | step expr ih =>
      obtain ⟨fits, parts⟩ := typed
      intro h
      rcases cause_of_eval h with raises | ⟨part, hpart, node, position, size, h⟩
      · exact not_raises_typeFault fits raises
      -- a predicate is evaluated at other nodes, under the same bindings
      · have hpartTyped : part.WellTyped (ctx.focus node position size).bindings := parts part hpart
        exact ih part hpart hpartTyped h

/-- A well-typed expression has a type. With the core library all its values are of this type,
and its evaluation does not fail for the type of a value. -/
theorem evaluate_typed (typed : expr.WellTyped ctx.bindings) :
    ∃ type, expr.staticType ctx.bindings = some type ∧
      (∀ value, evaluate .core expr ctx = .ok value → value.type = type) ∧
      ∀ fault, evaluate .core expr ctx ≠ .error (.typeFault fault) := by
  obtain ⟨fits, parts⟩ := typed
  obtain ⟨type, htype⟩ := Expr.exists_staticType fits
  refine ⟨type, htype, fun value h => ?_, fun fault => eval_ne_typeFault (.intro fits parts)⟩
  exact Option.some.inj ((type_of_eval h).symm.trans htype)

/-- The number of the nodes that a variable is bound to, with the second comment of an element
that has one comment only. -/
theorem evaluate_typed_count :
    let doc := Document.empty.run [.createElement (.plain "e") [(.plain "a", "v")],
      .edit ⟨1⟩ (.addText "s"), .edit ⟨1⟩ (.addComment "t")]
    let ctx := { Context.ofNode doc ⟨1⟩ with bindings := [("v", .nodes (.singleton ⟨2⟩))] }
    let isSecond := Expr.binary .equal (.call "position" []) (.number (.ofNat 2))
    let second := Expr.path .context [.mk .child .comment [isSecond]]
    let expr := Expr.call "count" [.binary .union (.reference "v") second]
    expr.WellTyped ctx.bindings ∧ evaluate .core expr ctx = .ok (.number (.ofNat 1)) ∧
      expr.staticType ctx.bindings = some .number := by
  intro doc ctx isSecond second expr
  have hposition : (Expr.call "position" []).Fits ctx.bindings := ⟨.position, by decide, nofun⟩
  have hnumber : (Expr.number (.ofNat 2)).Fits ctx.bindings := trivial
  have hbound : (Expr.reference "v").Fits ctx.bindings := trivial
  have hisSecond : isSecond.WellTyped ctx.bindings :=
    .binary trivial (hposition.wellTyped_of_no_parts rfl) (hnumber.wellTyped_of_no_parts rfl)
  have hsecond : second.WellTyped ctx.bindings :=
    .intro trivial (List.forall_mem_singleton.mpr hisSecond)
  have hunion : (Expr.binary .union (.reference "v") second).WellTyped ctx.bindings :=
    .binary ⟨rfl, rfl⟩ (hbound.wellTyped_of_no_parts rfl) hsecond
  have typed : expr.WellTyped ctx.bindings :=
    .intro ⟨.count, by decide, fun _ => List.forall_mem_singleton.mpr rfl⟩
      (List.forall_mem_singleton.mpr hunion)
  have hvalue : evaluate .core expr ctx = .ok (.number (.ofNat 1)) := by decide +kernel
  obtain ⟨type, htype, hvalues, _⟩ := evaluate_typed typed
  obtain rfl : ValueType.number = type := hvalues _ hvalue
  exact ⟨typed, hvalue, htype⟩

end XPathTree
