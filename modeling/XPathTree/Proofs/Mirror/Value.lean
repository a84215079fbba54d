import XPathTree.Proofs.Mirror.Document

/-!
# Values that are alike

Values of two evaluations are alike if they are the same string, number or boolean, or if they
are node-sets whose nodes are twins one by one. Over documents that mirror each other, alike
values convert to the same strings, numbers and booleans, compare the same, and give alike
values under every operator.

Two evaluations agree (`Agree`) if both fail with the same error or both have values that are
related. What is compared may be let off where the first evaluation fails in certain ways.
-/

namespace XPathTree

variable {twin : NodeId → NodeId → Prop} {doc doc' : Document}

/-! ## Outcomes that agree -/

/-- Two outcomes are the same error or related values, unless the first is an error that
excuses all differences. -/
inductive Agree {α β : Type} (excused : EvalError → Prop) (related : α → β → Prop) :
    Except EvalError α → Except EvalError β → Prop where
  | excused {cause : EvalError} {outcome : Except EvalError β} (h : excused cause) :
      Agree excused related (.error cause) outcome
  | error (cause : EvalError) : Agree excused related (.error cause) (.error cause)
  | ok {a : α} {b : β} (h : related a b) : Agree excused related (.ok a) (.ok b)

namespace Agree

variable {α β γ δ : Type} {excused : EvalError → Prop} {related : α → β → Prop}
variable {related' : γ → δ → Prop} {first : Except EvalError α} {second : Except EvalError β}

/-- Sequences agree if their parts do. -/
theorem bind {rest : α → Except EvalError γ} {rest' : β → Except EvalError δ}
    (h : Agree excused related first second)
    (hrest : ∀ a b, related a b → Agree excused related' (rest a) (rest' b)) :
    Agree excused related' (first >>= rest) (second >>= rest') := by
  cases h with
  | excused hexcused => exact .excused hexcused
  | error cause => exact .error cause
  | ok hrelated => exact hrest _ _ hrelated

/-- An outcome agrees with itself. -/
theorem refl {related : α → α → Prop} (h : ∀ a, first = .ok a → related a a) :
    Agree excused related first first := by
  cases first with
  | error cause => exact .error cause
  | ok a => exact .ok (h a rfl)

end Agree

/-! ## Values -/

/-- The values are the same, or they are node-sets of twins. -/
inductive Value.Alike (twin : NodeId → NodeId → Prop) : Value → Value → Prop where
  | nodes {a b : NodeSet} (h : List.Forall₂ twin a.nodes b.nodes) : Alike twin (.nodes a) (.nodes b)
  | string (text : String) : Alike twin (.string text) (.string text)
  | number (value : Double) : Alike twin (.number value) (.number value)
  | boolean (value : Bool) : Alike twin (.boolean value) (.boolean value)

/-- A value that is no node-set is like itself. -/
theorem Value.Alike.of_type_ne_nodes {value : Value} (h : value.type ≠ .nodes) :
    value.Alike twin value := by
  cases value with
  | nodes => exact absurd rfl h
  | string text => exact .string text
  | number value => exact .number value
  | boolean value => exact .boolean value

theorem Value.Alike.refl (value : Value) : value.Alike Eq value := by
  cases value with
  | nodes set => exact .nodes (List.forall₂_refl _)
  | string text => exact .string text
  | number value => exact .number value
  | boolean value => exact .boolean value

/-- Where every handle is its own twin, alike values are equal. -/
theorem Value.Alike.eq {value value' : Value} (h : value.Alike Eq value') : value = value' := by
  cases h with
  | @nodes a b h =>
      rw [List.forall₂_eq_eq_eq] at h
      exact congrArg (fun nodes => Value.nodes ⟨nodes⟩) h
  | string | number | boolean => rfl

/-- Then outcomes that agree are equal, too, unless the first is excused. -/
theorem Agree.excused_or_eq {excused : EvalError → Prop} {first second : Except EvalError Value}
    (h : Agree excused (Value.Alike Eq) first second) :
    (∃ cause, excused cause ∧ first = .error cause) ∨ first = second := by
  cases h with
  | excused hexcused => exact .inl ⟨_, hexcused, rfl⟩
  | error cause => exact .inr rfl
  | ok alike => exact .inr (congrArg Except.ok alike.eq)

theorem NodeSet.isEmpty_eq_of_twins {a b : NodeSet} (twins : List.Forall₂ twin a.nodes b.nodes) :
    a.isEmpty = b.isEmpty := by
  unfold isEmpty
  rw [Bool.eq_iff_iff, List.isEmpty_iff_length_eq_zero, List.isEmpty_iff_length_eq_zero,
    twins.length_eq]

namespace Value.Alike

variable {value value' : Value} (alike : value.Alike twin value')
include alike

theorem toBool_eq : value.toBool = value'.toBool := by
  cases alike with
  | nodes twins => exact congrArg not (NodeSet.isEmpty_eq_of_twins twins)
  | string | number | boolean => rfl

theorem keeps_eq (position : Nat) : value.keeps position = value'.keeps position := by
  cases alike with
  | nodes twins => exact congrArg not (NodeSet.isEmpty_eq_of_twins twins)
  | string | number | boolean => rfl

theorem nodeSet {excused : EvalError → Prop} :
    Agree excused (fun a b : NodeSet => List.Forall₂ twin a.nodes b.nodes)
      value.nodeSet value'.nodeSet := by
  cases alike with
  | nodes twins => exact .ok twins
  | string | number | boolean => exact .error _

theorem unionOperand {excused : EvalError → Prop} :
    Agree excused (fun a b : NodeSet => List.Forall₂ twin a.nodes b.nodes)
      (BinaryOp.unionOperand value) (BinaryOp.unionOperand value') := by
  cases alike with
  | nodes twins => exact .ok twins
  | string | number | boolean => exact .error _

end Value.Alike

namespace Document.Mirrors

variable (mirrors : doc.Mirrors twin doc')
include mirrors

/-! ## Texts and numbers of node-sets -/

section NodeSets

variable {a b : NodeSet} (twins : List.Forall₂ twin a.nodes b.nodes)
include twins

theorem texts_eq : a.texts doc = b.texts doc' :=
  map_eq_of_twins (fun _ _ => mirrors.stringValue_eq) twins

theorem numbers_eq : a.numbers doc = b.numbers doc' :=
  congrArg (List.map Double.parse) (mirrors.texts_eq twins)

theorem sum_eq : a.sum doc = b.sum doc' := by
  unfold NodeSet.sum
  rw [mirrors.numbers_eq twins]

theorem text_eq : a.text doc = b.text doc' := by
  have hfirst := congrArg (fun texts : List String => texts.head?.getD "") (mirrors.texts_eq twins)
  simp only [NodeSet.texts, List.head?_map] at hfirst
  exact hfirst

end NodeSets

/-! ## Conversions and operators -/

section Operators

variable {left right left' right' : Value}
variable (hleft : left.Alike twin left') (hright : right.Alike twin right')

theorem toText_eq (alike : left.Alike twin left') : left.toText doc = left'.toText doc' := by
  cases alike with
  | nodes twins => exact mirrors.text_eq twins
  | boolean value => cases value <;> rfl
  | string | number => rfl

theorem toNumber_eq (alike : left.Alike twin left') : left.toNumber doc = left'.toNumber doc' := by
  cases alike with
  | nodes twins => exact congrArg Double.parse (mirrors.text_eq twins)
  | string | number | boolean => rfl

include hleft hright

theorem equal_eq : Value.equal doc left right = Value.equal doc' left' right' := by
  cases hleft with
  | nodes twins =>
      cases hright with
      | nodes twins' => simp only [Value.equal, mirrors.texts_eq twins, mirrors.texts_eq twins']
      | string => simp only [Value.equal, mirrors.texts_eq twins]
      | number => simp only [Value.equal, mirrors.numbers_eq twins]
      | boolean => simp only [Value.equal, NodeSet.isEmpty_eq_of_twins twins]
  | string | number | boolean =>
      cases hright with
      | nodes twins =>
          simp only [Value.equal, mirrors.texts_eq twins, mirrors.numbers_eq twins,
            NodeSet.isEmpty_eq_of_twins twins]
      | string | number | boolean => rfl

theorem unequal_eq : Value.unequal doc left right = Value.unequal doc' left' right' := by
  have hequal := mirrors.equal_eq hleft hright
  cases hleft with
  | nodes twins =>
      cases hright with
      | nodes twins' => simp only [Value.unequal, mirrors.texts_eq twins, mirrors.texts_eq twins']
      | string => simp only [Value.unequal, mirrors.texts_eq twins]
      | number => simp only [Value.unequal, mirrors.numbers_eq twins]
      | boolean => exact congrArg not hequal
  | string | number =>
      cases hright with
      | nodes twins =>
          simp only [Value.unequal, mirrors.texts_eq twins, mirrors.numbers_eq twins]
      | string | number | boolean => exact congrArg not hequal
  | boolean =>
      cases hright with
      | nodes | string | number | boolean => exact congrArg not hequal

theorem related_eq (relation : Double → Double → Bool) :
    Value.related relation doc left right = Value.related relation doc' left' right' := by
  cases hleft with
  | nodes twins =>
      cases hright with
      | nodes twins' =>
          simp only [Value.related, mirrors.numbers_eq twins, mirrors.numbers_eq twins']
      | string | number => simp only [Value.related, mirrors.numbers_eq twins, Value.toNumber]
      | boolean => simp only [Value.related, NodeSet.isEmpty_eq_of_twins twins]
  | string | number | boolean =>
      cases hright with
      | nodes twins =>
          simp only [Value.related, mirrors.numbers_eq twins, Value.toNumber,
            NodeSet.isEmpty_eq_of_twins twins]
      | string | number | boolean => rfl

omit hleft hright in
theorem ofNodes {xs ys : List NodeId} (twins : List.Forall₂ twin xs ys) :
    (Value.nodes (.ofNodes doc xs)).Alike twin (.nodes (.ofNodes doc' ys)) :=
  .nodes (mirrors.sort twins)

/-- Operators give alike values for alike values. -/
theorem apply {excused : EvalError → Prop} (op : BinaryOp) :
    Agree excused (Value.Alike twin) (op.apply doc left right) (op.apply doc' left' right') := by
  cases op with
  | or | and =>
      simp only [BinaryOp.apply, hleft.toBool_eq, hright.toBool_eq]
      exact .ok (.boolean _)
  | equal =>
      simp only [BinaryOp.apply, mirrors.equal_eq hleft hright]
      exact .ok (.boolean _)
  | unequal =>
      simp only [BinaryOp.apply, mirrors.unequal_eq hleft hright]
      exact .ok (.boolean _)
  | less | lessOrEqual | greater | greaterOrEqual =>
      simp only [BinaryOp.apply, mirrors.related_eq hleft hright]
      exact .ok (.boolean _)
  | add | subtract | multiply | divide | modulo =>
      simp only [BinaryOp.apply, mirrors.toNumber_eq hleft, mirrors.toNumber_eq hright]
      exact .ok (.number _)
  | union =>
      refine .bind hleft.unionOperand fun a a' ha => .bind hright.unionOperand fun b b' hb => ?_
      exact .ok (mirrors.ofNodes (List.rel_append ha hb))

end Operators

end Document.Mirrors

end XPathTree
