import XPathTree.Proofs.Evaluation.Parts
import XPathTree.Proofs.Library.Identifier
import XPathTree.Proofs.Mirror.Value

/-!
# Contexts that mirror each other

Two contexts mirror each other if their documents do, if their nodes are twins at the same
position, and if names mean the same in both: variables have alike values, functions the same
names, and node tests ask the same. A core function then answers alike arguments alike.
Besides its arguments it may look at the node, the position and the size of the context, and
`id` and `lang` at the tree of the node.
-/

namespace XPathTree

variable {excused : EvalError → Prop} {twin : NodeId → NodeId → Prop} {ctx ctx' : Context}

/-- What the second context offers is what the first offers, at a twin of its node. -/
structure Context.Mirrors (excused : EvalError → Prop) (twin : NodeId → NodeId → Prop)
    (ctx ctx' : Context) : Prop where
  document : ctx.document.Mirrors twin ctx'.document
  node : twin ctx.node ctx'.node
  position : ctx.position = ctx'.position
  size : ctx.size = ctx'.size
  referent (name : String) :
    Agree excused (Value.Alike twin) (ctx.referent name) (ctx'.referent name)
  functionName (name : String) : Agree excused Eq (ctx.functionName name) (ctx'.functionName name)
  settle (axis : Axis) (test : NodeTest) :
    Agree excused Eq (test.settle ctx axis) (test.settle ctx' axis)

/-- Contexts that mirror each other do so from twins, too. -/
theorem Context.Mirrors.focus (mirrors : ctx.Mirrors excused twin ctx') {x y : NodeId}
    (h : twin x y) (position size : Nat) :
    (ctx.focus x position size).Mirrors excused twin (ctx'.focus y position size) :=
  { mirrors with node := h, position := rfl, size := rfl }

namespace CoreFunction

variable {f : CoreFunction} {arguments arguments' : List Value}
variable (twins : List.Forall₂ (Value.Alike twin) arguments arguments')

/-! ## Taking arguments apart -/

section Arguments

include twins

theorem countFault_agree {expected : Arity} :
    Agree excused (Value.Alike twin) (f.countFault expected arguments)
      (f.countFault expected arguments') := by
  unfold countFault
  rw [twins.length_eq]
  exact .error _

theorem nullary_agree {result result' : Value} (h : result.Alike twin result') :
    Agree excused (Value.Alike twin) (f.nullary arguments result)
      (f.nullary arguments' result') := by
  cases twins with
  | nil => exact .ok h
  | cons ha hrest => exact countFault_agree (.cons ha hrest)

theorem unary_agree {body body' : Value → Except EvalError Value}
    (h : ∀ a a', a.Alike twin a' → Agree excused (Value.Alike twin) (body a) (body' a')) :
    Agree excused (Value.Alike twin) (f.unary arguments body) (f.unary arguments' body') := by
  rcases twins with _ | ⟨ha, _ | ⟨hb, hrest⟩⟩
  · exact countFault_agree .nil
  · exact h _ _ ha
  · exact countFault_agree (.cons ha (.cons hb hrest))

theorem optional_agree {body body' : Option Value → Except EvalError Value}
    (hnone : Agree excused (Value.Alike twin) (body none) (body' none))
    (hsome : ∀ a a', a.Alike twin a' →
      Agree excused (Value.Alike twin) (body (some a)) (body' (some a'))) :
    Agree excused (Value.Alike twin) (f.optional arguments body) (f.optional arguments' body') := by
  rcases twins with _ | ⟨ha, _ | ⟨hb, hrest⟩⟩
  · exact hnone
  · exact hsome _ _ ha
  · exact countFault_agree (.cons ha (.cons hb hrest))

theorem ofNodeSet_agree {body body' : NodeSet → Value}
    (h : ∀ a b : NodeSet, List.Forall₂ twin a.nodes b.nodes → (body a).Alike twin (body' b)) :
    Agree excused (Value.Alike twin) (f.ofNodeSet arguments body)
      (f.ofNodeSet arguments' body') := by
  refine unary_agree twins fun a a' alike => ?_
  cases alike with
  | nodes twins => exact .ok (h _ _ twins)
  | string | number | boolean => exact .error _

variable (mirrors : ctx.Mirrors excused twin ctx')
include mirrors

theorem ofTwoTexts_agree {body : List Char → List Char → Value}
    (h : ∀ s t, (body s t).type ≠ .nodes) :
    Agree excused (Value.Alike twin) (f.ofTwoTexts ctx.document arguments body)
      (f.ofTwoTexts ctx'.document arguments' body) := by
  rcases twins with _ | ⟨ha, _ | ⟨hb, _ | ⟨hc, hrest⟩⟩⟩
  · exact countFault_agree .nil
  · exact countFault_agree (.cons ha .nil)
  · simp only [ofTwoTexts, mirrors.document.toText_eq ha, mirrors.document.toText_eq hb]
    exact .ok (.of_type_ne_nodes (h _ _))
  · exact countFault_agree (.cons ha (.cons hb (.cons hc hrest)))

theorem ofTextOrContext_agree {body : String → Value} (h : ∀ s, (body s).type ≠ .nodes) :
    Agree excused (Value.Alike twin) (f.ofTextOrContext ctx arguments body)
      (f.ofTextOrContext ctx' arguments' body) := by
  refine optional_agree twins ?_ fun a a' alike => ?_
  · simp only [mirrors.document.stringValue_eq mirrors.node]
    exact .ok (.of_type_ne_nodes (h _))
  · simp only [mirrors.document.toText_eq alike]
    exact .ok (.of_type_ne_nodes (h _))

theorem ofNodeOrContext_agree {body body' : NodeId → String}
    (h : ∀ x y, twin x y → body x = body' y) :
    Agree excused (Value.Alike twin) (f.ofNodeOrContext ctx arguments body)
      (f.ofNodeOrContext ctx' arguments' body') := by
  refine optional_agree twins ?_ fun a a' alike => ?_
  · simp only [h _ _ mirrors.node]
    exact .ok (.string _)
  · cases alike with
    | @nodes a b twins =>
        have hfirst : a.first?.map body = b.first?.map body' := by
          unfold NodeSet.first?
          rw [← List.head?_map, ← List.head?_map, map_eq_of_twins h twins]
        simp only [hfirst]
        exact .ok (.string _)
    | string | number | boolean => exact .error _

theorem ofNumber_agree {body : Double → Double} :
    Agree excused (Value.Alike twin) (f.ofNumber ctx.document arguments body)
      (f.ofNumber ctx'.document arguments' body) := by
  refine unary_agree twins fun a a' alike => ?_
  rw [mirrors.document.toNumber_eq alike]
  exact .ok (.number _)

end Arguments

/-! ## The functions -/

section Functions

variable (mirrors : ctx.Mirrors excused twin ctx')
include mirrors

/-- Alike values list the same identifiers. -/
theorem identifiers_eq {value value' : Value} (alike : value.Alike twin value') :
    identifiers ctx.document value = identifiers ctx'.document value' := by
  have htext : identifierText ctx.document value = identifierText ctx'.document value' := by
    cases alike with
    | nodes twins => exact congrArg (String.intercalate " ") (mirrors.document.texts_eq twins)
    | boolean value => cases value <;> rfl
    | string | number => rfl
  unfold identifiers
  rw [htext]

theorem select_alike {value value' : Value} (alike : value.Alike twin value') :
    (Value.nodes (select ctx value)).Alike twin (.nodes (select ctx' value')) := by
  rw [select_eq, select_eq, identifiers_eq mirrors alike]
  exact mirrors.document.ofNodes (mirrors.document.identified _ mirrors.node)

include twins

/-- A function answers alike arguments alike. -/
theorem run_agree (f : CoreFunction) :
    Agree excused (Value.Alike twin) (f.run ctx arguments) (f.run ctx' arguments') := by
  have document := mirrors.document
  cases f with
  | last =>
      simp only [run, mirrors.size]
      exact nullary_agree twins (.number _)
  | position =>
      simp only [run, mirrors.position]
      exact nullary_agree twins (.number _)
  | always | never =>
      simp only [run]
      exact nullary_agree twins (.boolean _)
  | count =>
      simp only [run]
      refine ofNodeSet_agree twins fun a b twins => ?_
      simp only [NodeSet.size, twins.length_eq]
      exact .number _
  | sum =>
      simp only [run]
      refine ofNodeSet_agree twins fun a b twins => ?_
      simp only [document.sum_eq twins]
      exact .number _
  | id => exact unary_agree twins fun a a' alike => .ok (select_alike mirrors alike)
  | localName => exact ofNodeOrContext_agree twins mirrors fun _ _ => document.localNameOf_eq
  | namespaceUri => exact ofNodeOrContext_agree twins mirrors fun _ _ => document.namespaceOf_eq
  | name => exact ofNodeOrContext_agree twins mirrors fun _ _ => document.lexicalNameOf_eq
  | string | stringLength | normalizeSpace =>
      simp only [run]
      exact ofTextOrContext_agree twins mirrors fun _ => ValueType.noConfusion
  | concat =>
      have htexts : arguments.map (·.toText ctx.document) =
          arguments'.map (·.toText ctx'.document) := by
        induction twins with
        | nil => rfl
        | cons ha _ ih => rw [List.map_cons, List.map_cons, document.toText_eq ha, ih]
      simp only [run, htexts]
      exact .ok (.string _)
  | startsWith | contains | substringBefore | substringAfter =>
      simp only [run]
      exact ofTwoTexts_agree twins mirrors fun _ _ => ValueType.noConfusion
  | substring =>
      rcases twins with _ | ⟨ha, _ | ⟨hb, _ | ⟨hc, _ | ⟨hd, hrest⟩⟩⟩⟩
      · exact countFault_agree .nil
      · exact countFault_agree (.cons ha .nil)
      · simp only [run, document.toText_eq ha, document.toNumber_eq hb]
        exact .ok (.string _)
      · simp only [run, document.toText_eq ha, document.toNumber_eq hb, document.toNumber_eq hc]
        exact .ok (.string _)
      · exact countFault_agree (.cons ha (.cons hb (.cons hc (.cons hd hrest))))
  | translate =>
      rcases twins with _ | ⟨ha, _ | ⟨hb, _ | ⟨hc, _ | ⟨hd, hrest⟩⟩⟩⟩
      · exact countFault_agree .nil
      · exact countFault_agree (.cons ha .nil)
      · exact countFault_agree (.cons ha (.cons hb .nil))
      · simp only [run, document.toText_eq ha, document.toText_eq hb, document.toText_eq hc]
        exact .ok (.string _)
      · exact countFault_agree (.cons ha (.cons hb (.cons hc (.cons hd hrest))))
  | boolean | negation =>
      simp only [run]
      refine unary_agree twins fun a a' alike => ?_
      rw [alike.toBool_eq]
      exact .ok (.boolean _)
  | lang =>
      simp only [run]
      refine unary_agree twins fun a a' alike => ?_
      rw [document.toText_eq alike, document.speaks_eq _ mirrors.node]
      exact .ok (.boolean _)
  | number =>
      simp only [run]
      refine optional_agree twins ?_ fun a a' alike => ?_
      · simp only [document.stringValue_eq mirrors.node]
        exact .ok (.number _)
      · simp only [document.toNumber_eq alike]
        exact .ok (.number _)
  | floor | ceiling | round => exact ofNumber_agree twins mirrors

end Functions

end CoreFunction

end XPathTree
