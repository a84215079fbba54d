import XPathTree.Proofs.Library.CoreFunction
import XPathTree.Proofs.Mirror.Context

/-!
# Two evaluations

The evaluations of one expression in two contexts that mirror each other agree (`eval_agree`):
both raise the same fault, or both give alike values. The proof goes along `Expr.induction`.
That the parts agree from any twins is enough for lists of arguments, for the nodes that
predicates keep and for those that steps select, and so for every form of expression.

The two evaluations may start from different depths and with different limits, as long as they
run out of levels together, or where the first one is let off.
-/

namespace XPathTree

variable {excused : EvalError → Prop} {twin : NodeId → NodeId → Prop} {ctx ctx' : Context}
variable {depth depth' : Nat}

/-- Both evaluations find the same depths below them too deep. -/
def SameRoom (excused : EvalError → Prop) (ctx : Context) (depth : Nat) (ctx' : Context)
    (depth' : Nat) : Prop :=
  ∀ levels, Agree excused Eq (ctx.checkDepth (depth + levels)) (ctx'.checkDepth (depth' + levels))

theorem SameRoom.succ (room : SameRoom excused ctx depth ctx' depth') :
    SameRoom excused ctx (depth + 1) ctx' (depth' + 1) := by
  intro levels
  rw [Nat.add_assoc, Nat.add_assoc]
  exact room (1 + levels)

/-- From any twins, one level deeper, the evaluations of each of some expressions agree. -/
def PartsAgree (excused : EvalError → Prop) (twin : NodeId → NodeId → Prop) (ctx : Context)
    (depth : Nat) (ctx' : Context) (depth' : Nat) (parts : List Expr) : Prop :=
  ∀ part ∈ parts, ∀ x y, twin x y → ∀ position size,
    Agree excused (Value.Alike twin)
      (eval .core part (ctx.focus x position size) (depth + 1))
      (eval .core part (ctx'.focus y position size) (depth' + 1))

theorem PartsAgree.mono {parts parts' : List Expr} (hsubset : parts ⊆ parts')
    (agree : PartsAgree excused twin ctx depth ctx' depth' parts') :
    PartsAgree excused twin ctx depth ctx' depth' parts :=
  fun part hpart => agree part (hsubset hpart)

/-- In the contexts themselves the parts agree, too. -/
theorem PartsAgree.here {parts : List Expr} (mirrors : ctx.Mirrors excused twin ctx')
    (agree : PartsAgree excused twin ctx depth ctx' depth' parts) {part : Expr}
    (hpart : part ∈ parts) :
    Agree excused (Value.Alike twin) (eval .core part ctx (depth + 1))
      (eval .core part ctx' (depth' + 1)) := by
  have hagree := agree part hpart _ _ mirrors.node ctx.position ctx.size
  have hfocus : ctx'.focus ctx'.node ctx.position ctx.size = ctx' := by
    rw [mirrors.position, mirrors.size]
    rfl
  rwa [hfocus] at hagree

/-! ## Lists of nodes -/

section Lists

variable {xs ys : List NodeId}

theorem keepWhere_agree {keep keep' : NodeId → Nat → Except EvalError Bool}
    (h : ∀ x y, twin x y → ∀ position, Agree excused Eq (keep x position) (keep' y position))
    (twins : List.Forall₂ twin xs ys) (position : Nat) :
    Agree excused (List.Forall₂ twin) (keepWhere keep position xs)
      (keepWhere keep' position ys) := by
  induction twins generalizing position with
  | nil => exact .ok .nil
  | cons hxy _ ih =>
      refine .bind (h _ _ hxy position) fun kept kept' heq => ?_
      subst heq
      refine .bind (ih (position + 1)) fun rest rest' hrest => .ok ?_
      cases kept with
      | true => exact .cons hxy hrest
      | false => exact hrest

theorem selectEach_agree {select select' : NodeId → Except EvalError (List NodeId)}
    (h : ∀ x y, twin x y → Agree excused (List.Forall₂ twin) (select x) (select' y))
    (twins : List.Forall₂ twin xs ys) :
    Agree excused (List.Forall₂ twin) (selectEach select xs) (selectEach select' ys) := by
  induction twins with
  | nil => exact .ok .nil
  | cons hxy _ ih =>
      refine .bind (h _ _ hxy) fun found found' hfound => ?_
      refine .bind ih fun rest rest' hrest => .ok ?_
      exact List.rel_append hfound hrest

end Lists

/-! ## Parts -/

section Parts

variable (mirrors : ctx.Mirrors excused twin ctx')

theorem evalPredicates_agree {predicates : List Expr} {xs ys : List NodeId}
    (agree : PartsAgree excused twin ctx depth ctx' depth' predicates)
    (twins : List.Forall₂ twin xs ys) :
    Agree excused (List.Forall₂ twin) (evalPredicates .core predicates xs ctx depth)
      (evalPredicates .core predicates ys ctx' depth') := by
  induction predicates generalizing xs ys with
  | nil => exact .ok twins
  | cons predicate rest ih =>
      refine .bind (keepWhere_agree (fun x y hxy position => ?_) twins 1) fun kept kept' hkept => ?_
      · rw [twins.length_eq]
        refine .bind (agree predicate List.mem_cons_self x y hxy position _) fun a b alike => ?_
        exact .ok (alike.keeps_eq position)
      · exact ih (agree.mono (List.subset_cons_self _ _)) hkept

include mirrors

theorem evalArguments_agree {arguments : List Expr}
    (agree : PartsAgree excused twin ctx depth ctx' depth' arguments) :
    Agree excused (List.Forall₂ (Value.Alike twin))
      (evalArguments .core arguments ctx (depth + 1))
      (evalArguments .core arguments ctx' (depth' + 1)) := by
  induction arguments with
  | nil => exact .ok .nil
  | cons argument rest ih =>
      refine .bind (agree.here mirrors List.mem_cons_self) fun a b alike => ?_
      refine .bind (ih (agree.mono (List.subset_cons_self _ _))) fun values values' hvalues => ?_
      exact .ok (.cons alike hvalues)

theorem evalStart_agree {start : Start}
    (agree : PartsAgree excused twin ctx depth ctx' depth' start.parts) :
    Agree excused (fun a b : NodeSet => List.Forall₂ twin a.nodes b.nodes)
      (evalStart .core start ctx depth) (evalStart .core start ctx' depth') := by
  cases start with
  | context => exact .ok (.cons mirrors.node .nil)
  | root => exact .ok (.cons (mirrors.document.twin_treeRoot mirrors.node) .nil)
  | nodes source =>
      exact .bind (agree.here mirrors List.mem_cons_self) fun _ _ alike => alike.nodeSet

theorem evalStep_agree {step : Step} {a b : NodeSet}
    (agree : PartsAgree excused twin ctx depth ctx' depth' step.predicates)
    (twins : List.Forall₂ twin a.nodes b.nodes) :
    Agree excused (fun a b : NodeSet => List.Forall₂ twin a.nodes b.nodes)
      (evalStep .core step a ctx depth) (evalStep .core step b ctx' depth') := by
  obtain ⟨axis, test, predicates⟩ := step
  refine .bind (mirrors.settle axis test) fun settled settled' heq => ?_
  subst heq
  refine .bind (selectEach_agree (fun x y hxy => ?_) twins) fun found found' hfound => ?_
  · exact evalPredicates_agree agree (mirrors.document.candidates axis settled hxy)
  · exact .ok (mirrors.document.sort hfound)

theorem evalSteps_agree {steps : List Step} {a b : NodeSet}
    (agree : PartsAgree excused twin ctx depth ctx' depth' (steps.flatMap Step.predicates))
    (twins : List.Forall₂ twin a.nodes b.nodes) :
    Agree excused (fun a b : NodeSet => List.Forall₂ twin a.nodes b.nodes)
      (evalSteps .core steps a ctx depth) (evalSteps .core steps b ctx' depth') := by
  induction steps generalizing a b with
  | nil => exact .ok twins
  | cons step rest ih =>
      rw [List.flatMap_cons] at agree
      refine .bind (evalStep_agree mirrors (agree.mono (List.subset_append_left _ _)) twins)
        fun set set' hset => ?_
      exact ih (agree.mono (List.subset_append_right _ _)) hset

theorem call_core_agree {arguments arguments' : List Value} (name : FunctionName)
    (twins : List.Forall₂ (Value.Alike twin) arguments arguments') :
    Agree excused (Value.Alike twin) (Library.core.call name ctx arguments)
      (Library.core.call name ctx' arguments') := by
  unfold Library.call
  rw [twins.length_eq]
  cases hfind : Library.core.find? name with
  | none => exact .error _
  | some function =>
      obtain ⟨f, _, rfl⟩ := Library.exists_of_find?_core hfind
      dsimp only
      split
      · exact f.run_agree twins mirrors
      · exact .error _

/-- The operands of an operator agree, and with them whether the first one decides. -/
theorem apply_agree {op : BinaryOp} {left right : Expr}
    (agree : PartsAgree excused twin ctx depth ctx' depth' [left, right]) {value value' : Value}
    (alike : value.Alike twin value') :
    Agree excused (Value.Alike twin)
      (match op.decided? value with
        | some result => .ok result
        | none => do
          let other ← eval .core right ctx (depth + 1)
          op.apply ctx.document value other)
      (match op.decided? value' with
        | some result => .ok result
        | none => do
          let other ← eval .core right ctx' (depth' + 1)
          op.apply ctx'.document value' other) := by
  have hdecided : op.decided? value = op.decided? value' := by
    unfold BinaryOp.decided?
    rw [alike.toBool_eq]
  rw [hdecided]
  split
  · next hresult =>
      obtain ⟨_, answer, rfl⟩ := BinaryOp.eq_of_decided? hresult
      exact .ok (.boolean answer)
  · refine .bind (agree.here mirrors (List.mem_cons_of_mem _ List.mem_cons_self)) fun a b h => ?_
    exact mirrors.document.apply alike h op

end Parts

/-! ## All expressions -/

/-- Evaluations of an expression in contexts that mirror each other agree. -/
theorem eval_agree (expr : Expr) (mirrors : ctx.Mirrors excused twin ctx')
    (room : SameRoom excused ctx depth ctx' depth') :
    Agree excused (Value.Alike twin) (eval .core expr ctx depth)
      (eval .core expr ctx' depth') := by
  induction expr using Expr.induction generalizing ctx ctx' depth depth' with
  | step expr ih =>
      -- contexts stay mirrored from any twins, as predicates need it
      have agree : PartsAgree excused twin ctx depth ctx' depth' expr.parts :=
        fun part hpart x y hxy position size =>
          ih part hpart (mirrors.focus hxy position size) room.succ
      have hroom : Agree excused Eq (ctx.checkDepth depth) (ctx'.checkDepth depth') := room 0
      cases expr with
      | literal text =>
          rw [eval_literal, eval_literal]
          exact .bind hroom fun _ _ _ => .ok (.string text)
      | number value =>
          rw [eval_number, eval_number]
          exact .bind hroom fun _ _ _ => .ok (.number value)
      | reference name =>
          rw [eval_reference, eval_reference]
          exact .bind hroom fun _ _ _ => mirrors.referent name
      | call name arguments =>
          rw [eval_call, eval_call]
          refine .bind hroom fun _ _ _ => ?_
          refine .bind (mirrors.functionName name) fun function function' heq => ?_
          subst heq
          refine .bind (evalArguments_agree mirrors agree) fun values values' hvalues => ?_
          exact call_core_agree mirrors function hvalues
      | path start steps =>
          rw [eval_path, eval_path]
          refine .bind hroom fun _ _ _ => ?_
          have hstart := agree.mono (List.subset_append_left _ _)
          have hsteps := agree.mono (List.subset_append_right _ _)
          refine .bind (evalStart_agree mirrors hstart) fun a b hset => ?_
          refine .bind (evalSteps_agree mirrors hsteps hset) fun a b hset => ?_
          exact .ok (.nodes hset)
      | filter primary predicates =>
          rw [eval_filter, eval_filter]
          refine .bind hroom fun _ _ _ => ?_
          refine .bind (agree.here mirrors List.mem_cons_self) fun value value' alike => ?_
          refine .bind alike.nodeSet fun a b hset => ?_
          have hpredicates := agree.mono (List.subset_cons_self _ _)
          refine .bind (evalPredicates_agree hpredicates hset) fun kept kept' hkept => ?_
          exact .ok (mirrors.document.ofNodes hkept)
      | binary op left right =>
          rw [eval_binary, eval_binary]
          refine .bind hroom fun _ _ _ => ?_
          refine .bind (agree.here mirrors List.mem_cons_self) fun value value' alike => ?_
          exact apply_agree mirrors agree alike
      | negate operand =>
          rw [eval_negate, eval_negate]
          refine .bind hroom fun _ _ _ => ?_
          refine .bind (agree.here mirrors List.mem_cons_self) fun value value' alike => ?_
          rw [mirrors.document.toNumber_eq alike]
          exact .ok (.number _)

end XPathTree
