import XPathTree.Library.CoreFunction

/-!
# What the core functions give

The core library holds the core functions and nothing else, each under its own name. What a
core function answers is a value of its type, whatever it is applied to, or one of two refusals:
of the number of arguments, or of an argument that has to be a node-set and is not
(`CoreFunction.run_answers`). Only `id` gives node-sets, and those are what it selects in the
tree of the context node.

A function takes its arguments apart by itself, and what it refuses there is what its arity
refuses already. So the refusals of a call can be read off the arity and the types of the
arguments (`CoreFunction.refusal?`), whatever the context (`Library.call_core_error_iff`).
-/

namespace XPathTree

variable {ctx : Context} {doc : Document} {arguments : List Value} {type : ValueType}

theorem type_ne_nodes {value : Value} (h : ∀ set, value = .nodes set → False) :
    value.type ≠ .nodes := by
  cases value with
  | nodes set => exact (h set rfl).elim
  | string | number | boolean => exact ValueType.noConfusion

namespace CoreFunction

variable {f : CoreFunction}

/-! ## Types -/

/-- The type of what a function gives. -/
def resultType : CoreFunction → ValueType
  | id => .nodes
  | last | position | count | stringLength | number | sum | floor | ceiling | round => .number
  | localName | namespaceUri | name | string | concat | substringBefore | substringAfter
  | substring | normalizeSpace | translate => .string
  | startsWith | contains | boolean | negation | always | never | lang => .boolean

/-- The functions whose arguments have to be node-sets. -/
def takesNodeSets : CoreFunction → Bool
  | count | localName | namespaceUri | name | sum => true
  | _ => false

/-- What a function may answer to arguments. -/
inductive Answers (f : CoreFunction) (arguments : List Value) (type : ValueType) :
    Except EvalError Value → Prop where
  | value {value : Value} (h : value.type = type)
      (fits : f.takesNodeSets = true → ∀ a ∈ arguments, a.type = .nodes) :
      Answers f arguments type (.ok value)
  | refusedCount (refuses : f.arity.accepts arguments.length = false) :
      Answers f arguments type
        (.error (.argumentCount (.core f.label) f.arity arguments.length))
  | refusedArgument {found : Value} (takes : f.takesNodeSets = true) (mem : found ∈ arguments)
      (other : found.type ≠ .nodes) :
      Answers f arguments type (.error (.typeFault (.argument f.label found.type)))

/-- A value of a function whose arguments may be of any type. -/
theorem Answers.of_any {value : Value} (takes : f.takesNodeSets = false) (h : value.type = type) :
    f.Answers arguments type (.ok value) :=
  .value h fun htakes => absurd htakes (Bool.eq_false_iff.mp takes)

/-- A refusal of the number of arguments tells the arity of the function. -/
theorem countFault_answers {expected : Arity} (declared : f.arity = expected)
    (refuses : expected.accepts arguments.length = false) :
    f.Answers arguments type (f.countFault expected arguments) := by
  subst declared
  exact .refusedCount refuses

theorem nullary_answers {result : Value} (declared : f.arity = .exactly 0)
    (h : result.type = type) : f.Answers arguments type (f.nullary arguments result) := by
  match arguments with
  | [] => exact .value h fun _ => List.forall_mem_nil _
  | _ :: _ => exact countFault_answers declared rfl

theorem unary_answers {body : Value → Except EvalError Value} (declared : f.arity = .exactly 1)
    (h : ∀ a, arguments = [a] → f.Answers arguments type (body a)) :
    f.Answers arguments type (f.unary arguments body) := by
  match arguments with
  | [] => exact countFault_answers declared rfl
  | [a] => exact h a rfl
  | _ :: _ :: _ => exact countFault_answers declared rfl

theorem optional_answers {body : Option Value → Except EvalError Value}
    (declared : f.arity = .between 0 1)
    (h : ∀ a : Option Value, arguments = a.toList → f.Answers arguments type (body a)) :
    f.Answers arguments type (f.optional arguments body) := by
  match arguments with
  | [] => exact h none rfl
  | [a] => exact h (some a) rfl
  | _ :: _ :: _ => exact countFault_answers declared rfl

theorem ofTwoTexts_answers {body : List Char → List Char → Value}
    (declared : f.arity = .exactly 2) (takes : f.takesNodeSets = false)
    (h : ∀ s t, (body s t).type = type) :
    f.Answers arguments type (f.ofTwoTexts doc arguments body) := by
  match arguments with
  | [] | [_] => exact countFault_answers declared rfl
  | [_, _] => exact .of_any takes (h _ _)
  | _ :: _ :: _ :: _ => exact countFault_answers declared rfl

theorem ofTextOrContext_answers {body : String → Value} (declared : f.arity = .between 0 1)
    (takes : f.takesNodeSets = false) (h : ∀ s, (body s).type = type) :
    f.Answers arguments type (f.ofTextOrContext ctx arguments body) := by
  refine optional_answers declared fun a _ => ?_
  cases a with
  | none => exact .of_any takes (h _)
  | some a => exact .of_any takes (h _)

theorem ofNodeOrContext_answers {body : NodeId → String} (declared : f.arity = .between 0 1)
    (takes : f.takesNodeSets = true) :
    f.Answers arguments .string (f.ofNodeOrContext ctx arguments body) := by
  refine optional_answers declared fun a ha => ?_
  subst ha
  split
  · exact .value rfl fun _ => List.forall_mem_nil _
  · exact .value rfl fun _ => List.forall_mem_singleton.mpr rfl
  · next hother =>
      exact .refusedArgument takes (List.mem_singleton_self _) (type_ne_nodes hother)

theorem ofNodeSet_answers {body : NodeSet → Value} (declared : f.arity = .exactly 1)
    (takes : f.takesNodeSets = true) (h : ∀ set, (body set).type = type) :
    f.Answers arguments type (f.ofNodeSet arguments body) := by
  refine unary_answers declared fun a ha => ?_
  subst ha
  split
  · exact .value (h _) fun _ => List.forall_mem_singleton.mpr rfl
  · next hother =>
      exact .refusedArgument takes (List.mem_singleton_self _) (type_ne_nodes hother)

/-- A function answers with values of its type, and refuses as its arity and its arguments
make it. -/
theorem run_answers (f : CoreFunction) (ctx : Context) (arguments : List Value) :
    f.Answers arguments f.resultType (f.run ctx arguments) := by
  cases f with
  | last | position | always | never =>
      simp only [run]
      exact nullary_answers rfl rfl
  | count | sum =>
      simp only [run]
      exact ofNodeSet_answers rfl rfl fun _ => rfl
  | id | boolean | negation | lang | floor | ceiling | round =>
      simp only [run, ofNumber]
      exact unary_answers rfl fun _ _ => .of_any rfl rfl
  | localName | namespaceUri | name => exact ofNodeOrContext_answers rfl rfl
  | string | stringLength | normalizeSpace =>
      simp only [run]
      exact ofTextOrContext_answers rfl rfl fun _ => rfl
  | concat => exact .of_any rfl rfl
  | startsWith | contains | substringBefore | substringAfter =>
      simp only [run]
      exact ofTwoTexts_answers rfl rfl fun _ _ => rfl
  | substring =>
      match arguments with
      | [] | [_] => exact countFault_answers rfl rfl
      | [_, _] | [_, _, _] => exact .of_any rfl rfl
      | _ :: _ :: _ :: _ :: _ => exact countFault_answers rfl (by simp [Arity.accepts])
  | translate =>
      match arguments with
      | [] | [_] | [_, _] => exact countFault_answers rfl rfl
      | [_, _, _] => exact .of_any rfl rfl
      | _ :: _ :: _ :: _ :: _ => exact countFault_answers rfl rfl
  | number =>
      simp only [run]
      refine optional_answers rfl fun a _ => ?_
      cases a with
      | none => exact .of_any rfl rfl
      | some a => exact .of_any rfl rfl

theorem type_of_run {value : Value} (h : f.run ctx arguments = .ok value) :
    value.type = f.resultType := by
  have hanswers := f.run_answers ctx arguments
  rw [h] at hanswers
  cases hanswers with
  | value htype => exact htype

/-- Node-sets come from `id` alone. -/
theorem exists_select_of_run {set : NodeSet} (h : f.run ctx arguments = .ok (.nodes set)) :
    ∃ a, set = select ctx a := by
  have htype : ValueType.nodes = f.resultType := type_of_run h
  cases f with
  | id =>
      simp only [run, unary] at h
      split at h
      · next a => exact ⟨a, (Value.nodes.inj (Except.ok.inj h)).symm⟩
      · cases h
  | _ => cases htype

end CoreFunction

/-! ## The core library -/

namespace Library

variable {name : FunctionName} {function : FunctionDef}

theorem exists_of_find?_foldl {functions : List CoreFunction} {library : Library}
    (h : (functions.foldl (fun library f => library.register (.core f.label) ⟨f.arity, f.run⟩)
      library).find? name = some function) :
    library.find? name = some function ∨
      ∃ f ∈ functions, name = .core f.label ∧ function = ⟨f.arity, f.run⟩ := by
  induction functions generalizing library with
  | nil => exact .inl h
  | cons f rest ih =>
      rcases ih h with h | ⟨g, hg, hfound⟩
      · rw [find?_register] at h
        split at h
        · next hname => exact .inr ⟨f, List.mem_cons_self, hname, (Option.some.inj h).symm⟩
        · exact .inl h
      · exact .inr ⟨g, List.mem_cons_of_mem f hg, hfound⟩

/-- What is found in the core library is a core function. -/
theorem exists_of_find?_core (h : core.find? name = some function) :
    ∃ f : CoreFunction, name = .core f.label ∧ function = ⟨f.arity, f.run⟩ := by
  rcases exists_of_find?_foldl h with h | ⟨f, _, hfound⟩
  · cases h
  · exact ⟨f, hfound⟩

/-- Every core function is found under its name, with its arity. -/
theorem find?_core (f : CoreFunction) :
    core.find? (.core f.label) = some ⟨f.arity, f.run⟩ := by
  cases f <;> rfl

/-- A call of a core function runs it, if it takes that many arguments. -/
theorem call_core (f : CoreFunction) (ctx : Context) (arguments : List Value) :
    core.call (.core f.label) ctx arguments =
      if f.arity.accepts arguments.length then f.run ctx arguments
      else f.countFault f.arity arguments := by
  unfold call
  rw [find?_core]
  rfl

/-- Two values and more are concatenated by their texts. -/
theorem call_concat (ctx : Context) (s t : Value) (rest : List Value) :
    core.call (.core "concat") ctx (s :: t :: rest) =
      .ok (.string (String.join ((s :: t :: rest).map (·.toText ctx.document)))) := by
  have haccepts : CoreFunction.concat.arity.accepts (s :: t :: rest).length = true :=
    decide_eq_true (Nat.le_add_left 2 rest.length)
  have hcall := call_core .concat ctx (s :: t :: rest)
  rwa [if_pos haccepts] at hcall

/-- Under a name that is not that of a core function nothing can be called. -/
theorem unknown_or_label (name : FunctionName) (ctx : Context) (arguments : List Value) :
    core.call name ctx arguments = .error (.unknownFunction name) ∨
      ∃ f : CoreFunction, name = .core f.label := by
  unfold call
  cases hfind : core.find? name with
  | none => exact .inl rfl
  | some function =>
      obtain ⟨f, hname, _⟩ := exists_of_find?_core hfind
      exact .inr ⟨f, hname⟩

/-- A call that succeeds has run a core function. -/
theorem exists_run_of_call_core {value : Value} (h : core.call name ctx arguments = .ok value) :
    ∃ f : CoreFunction, name = .core f.label ∧ f.run ctx arguments = .ok value := by
  rcases unknown_or_label name ctx arguments with hcall | ⟨f, rfl⟩
  · cases hcall.symm.trans h
  · rw [call_core] at h
    split at h
    · exact ⟨f, rfl, h⟩
    · cases h

/-- A call of the core library answers as the function of that name does. -/
theorem call_core_answers (name : FunctionName) (ctx : Context) (arguments : List Value) :
    core.call name ctx arguments = .error (.unknownFunction name) ∨
      ∃ f : CoreFunction, name = .core f.label ∧
        f.Answers arguments f.resultType (core.call name ctx arguments) := by
  refine (unknown_or_label name ctx arguments).imp_right ?_
  rintro ⟨f, rfl⟩
  refine ⟨f, rfl, ?_⟩
  rw [call_core]
  split
  · exact f.run_answers ctx arguments
  · next refuses => exact .refusedCount (Bool.eq_false_iff.mpr refuses)

end Library

/-! ## Refusals -/

/-- What a call of a function with given arguments is refused with: with its arity, if that does
not accept their number, and with the type of an argument that is no node-set, if the function
takes node-sets. -/
def CoreFunction.refusal? (f : CoreFunction) (arguments : List Value) : Option EvalError :=
  if f.arity.accepts arguments.length then
    if f.takesNodeSets then
      (arguments.find? fun given => given.type != .nodes).map fun given =>
        .typeFault (.argument f.label given.type)
    else none
  else some (.argumentCount (.core f.label) f.arity arguments.length)

/-- No function that takes node-sets takes more than one. -/
theorem CoreFunction.length_le_one {f : CoreFunction} (takes : f.takesNodeSets = true)
    (accepts : f.arity.accepts arguments.length = true) : arguments.length ≤ 1 := by
  cases f with
  | count | sum => exact Nat.le_of_eq (eq_of_beq accepts)
  | localName | namespaceUri | name =>
      simp only [arity, Arity.accepts, Bool.and_eq_true, decide_eq_true_iff] at accepts
      exact accepts.2
  | _ => cases takes

namespace Library

/-- A call has a value where no refusal is foretold, and else meets this refusal. -/
theorem call_core_foretold (f : CoreFunction) (ctx : Context) (arguments : List Value) :
    (∃ value, f.refusal? arguments = none ∧ core.call (.core f.label) ctx arguments = .ok value ∧
        value.type = f.resultType) ∨
      ∃ cause, f.refusal? arguments = some cause ∧
        core.call (.core f.label) ctx arguments = .error cause := by
  rw [call_core]
  unfold CoreFunction.refusal?
  by_cases accepts : f.arity.accepts arguments.length = true
  · rw [if_pos accepts, if_pos accepts]
    have hanswers := f.run_answers ctx arguments
    generalize f.run ctx arguments = answer at hanswers
    cases hanswers with
    | @value value htype fits =>
        refine .inl ⟨value, ?_, rfl, htype⟩
        split
        · next takes =>
            rw [Option.map_eq_none_iff, List.find?_eq_none]
            intro given hgiven
            simp [fits takes given hgiven]
        · rfl
    | refusedCount refuses => exact absurd accepts (Bool.eq_false_iff.mp refuses)
    | @refusedArgument found takes mem other =>
        -- there is no other argument that could be complained of first
        obtain ⟨only, rfl⟩ := List.length_eq_one_iff.mp
          (Nat.le_antisymm (CoreFunction.length_le_one takes accepts)
            (List.length_pos_of_mem mem))
        obtain rfl := List.mem_singleton.mp mem
        refine .inr ⟨_, ?_, rfl⟩
        have hfound : (found.type != .nodes) = true := bne_iff_ne.mpr other
        rw [if_pos takes, List.find?_singleton, if_pos hfound]
        rfl
  · rw [if_neg accepts, if_neg accepts]
    exact .inr ⟨_, rfl, rfl⟩

/-- The errors of a core function are foretold by the number and the types of its arguments,
whatever the context. A call is refused exactly as `CoreFunction.refusal?` says, with the arity
that the function is registered with, and otherwise it has a value, of the type of the function. -/
theorem call_core_error_iff (f : CoreFunction) (ctx : Context) (arguments : List Value) :
    (core.find? (.core f.label)).map (·.arity) = some f.arity ∧
      (∀ cause, core.call (.core f.label) ctx arguments = .error cause ↔
        f.refusal? arguments = some cause) ∧
      ((∃ value, core.call (.core f.label) ctx arguments = .ok value ∧
          value.type = f.resultType) ↔ f.refusal? arguments = none) := by
  have hdeclared : (core.find? (.core f.label)).map (·.arity) = some f.arity := by
    rw [find?_core]
    rfl
  refine ⟨hdeclared, ?_⟩
  rcases call_core_foretold f ctx arguments with
    ⟨value, hrefusal, hcall, htype⟩ | ⟨cause, hrefusal, hcall⟩
  · rw [hcall, hrefusal]
    refine ⟨fun cause => iff_of_false ?_ ?_, iff_of_true ⟨value, rfl, htype⟩ rfl⟩
    · intro h
      cases h
    · intro h
      cases h
  · rw [hcall, hrefusal]
    refine ⟨fun other => ?_, iff_of_false ?_ (Option.some_ne_none cause)⟩
    · rw [Except.error.injEq, Option.some.injEq]
    · rintro ⟨value, h, _⟩
      cases h

end Library

end XPathTree
