import XPathTree.Proofs.Document.ContentOrder
import XPathTree.Proofs.Document.Naming
import XPathTree.Proofs.Evaluation.Detour
import XPathTree.Proofs.Evaluation.Parts
import XPathTree.Proofs.Name.Test

/-!
# Children of a written name

In a lexical run the elements are given their names as texts, and a step to the children of a
written name asks for a text as well. Without bindings the step leads to the children that were
given this text, in their order, also in a document in which an attribute stands among the
children. Only for texts that lack a part it leads nowhere (`evaluate_child_ofLexical`): they are
good as names of elements, but the test that is read from them passes none.
-/

namespace XPathTree

open Text

/-! ## The children that were given a name -/

namespace Document

variable {doc : Document} {id : NodeId} {commands : List Command} {text : String}

/-- A test for elements by name passes those whose name passes. -/
theorem accepts_named_iff {test : NameTest} :
    (SettledTest.named .element test).accepts (doc.kind? id) = true ↔
      ∃ name, doc.IsNamed id name ∧ test.accepts name = true := by
  unfold IsNamed SettledTest.accepts
  cases doc.kind? id with
  | none => simp
  | some kind => cases kind <;> simp [NodeKind.nodeType, NodeKind.name?]

/-- In a document of a lexical run, a test that passes the name of one text passes the elements
that were given this text. -/
theorem accepts_named_iff_namedAs (lexical : ∀ command ∈ commands, command.IsLexical)
    {test : NameTest} {holds : Prop}
    (h : ∀ other, test.accepts (.ofLexical other) = true ↔ other = text ∧ holds) :
    (SettledTest.named .element test).accepts ((empty.run commands).kind? id) = true ↔
      empty.NamedAs commands text id ∧ holds := by
  rw [accepts_named_iff]
  constructor
  · rintro ⟨name, hnamed, haccepts⟩
    obtain ⟨other, rfl, hgiven⟩ := exists_namedAs lexical (isNamed_run_empty_iff.mp hnamed)
    obtain ⟨rfl, hholds⟩ := (h other).mp haccepts
    exact ⟨hgiven, hholds⟩
  · rintro ⟨hgiven, hholds⟩
    exact ⟨.ofLexical text, isNamed_run_empty_iff.mpr hgiven, (h text).mpr ⟨rfl, hholds⟩⟩

/-- Elements are no attributes. -/
theorem IsNamed.isContent {name : QName} (h : doc.IsNamed id name) : doc.IsContent id := by
  obtain ⟨listed, hkind⟩ := h
  unfold IsContent nodeType?
  rw [hkind]
  nofun

end Document

section Steps

open Document

variable {library : Library} {ctx : Context} {text : String}

/-- A path of one step without predicates leads to the candidates of the context node, in document
order. -/
theorem evaluate_step {axis : Axis} {test : NodeTest} {settled : SettledTest}
    (h : test.settle ctx axis = .ok settled) :
    evaluate library (.path .context [.plain axis test]) ctx =
      .ok (.nodes (.ofNodes ctx.document (ctx.document.candidates axis settled ctx.node))) := by
  unfold evaluate
  rw [eval_path, Context.checkDepth, if_neg (Nat.not_lt_zero _)]
  show (evalSteps library [.plain axis test] (.singleton ctx.node) ctx 0).map Value.nodes = _
  rw [evalSteps, evalStep_plain, h]
  simp [evalSteps, Except.map, NodeSet.singleton, bind, Except.bind]

/-- A step to children with a name test leads to those children that pass, as they stand: the test
passes elements only, and these are in order. -/
theorem evaluate_child_named (wf : ctx.document.WellFormed) {test : NodeTest} {name : NameTest}
    (h : test.settle ctx .child = .ok (.named .element name)) :
    evaluate library (.path .context [.plain .child test]) ctx =
      .ok (.nodes ⟨(ctx.document.children ctx.node).filter fun id =>
        (SettledTest.named .element name).accepts (ctx.document.kind? id)⟩) := by
  have hcontent : ∀ id ∈ ctx.document.candidates .child (.named .element name) ctx.node,
      ctx.document.IsContent id := by
    intro id hid
    obtain ⟨_, hnamed, _⟩ := accepts_named_iff.mp (mem_candidates_iff.mp hid).2
    exact hnamed.isContent
  have hsorted := wf.placed.sort_eq_self hcontent
    (wf.inOrder_of_sublist_children List.filter_sublist hcontent)
  rw [evaluate_step h, NodeSet.ofNodes, hsorted]
  rfl

/-- In a document in which elements were given their names as texts, in a context that binds no
prefix and asks for no bindings, the step to the children of a written name leads to the child
elements that were given this text, in their order, if it has something on both sides of its first
colon or has no colon. If it lacks a part, the step leads nowhere, whatever the elements are
called. -/
theorem evaluate_child_ofLexical {commands : List Command}
    (lexical : ∀ command ∈ commands, command.IsLexical) (hdoc : ctx.document = empty.run commands)
    (bare : ctx.prefixes = []) (lenient : ctx.config.strict = false)
    (particular : ¬ IsWildcard text) :
    (¬ LacksPart text → evaluate library (.path .context [.child text]) ctx =
      .ok (.nodes ⟨(ctx.document.children ctx.node).filter (empty.NamedAs commands text ·)⟩)) ∧
    (LacksPart text → evaluate library (.path .context [.child text]) ctx = .ok (.nodes ⟨[]⟩)) := by
  obtain ⟨test, hsettle, htest⟩ := settle_ofLexical bare lenient particular .child
  have haccepts : ∀ id, (SettledTest.named .element test).accepts (ctx.document.kind? id) = true ↔
      empty.NamedAs commands text id ∧ ¬ LacksPart text := by
    intro id
    rw [hdoc]
    exact accepts_named_iff_namedAs lexical htest
  have hselected : (ctx.document.children ctx.node).filter (fun id =>
        (SettledTest.named .element test).accepts (ctx.document.kind? id)) =
      (ctx.document.children ctx.node).filter fun id =>
        empty.NamedAs commands text id ∧ ¬ LacksPart text :=
    List.filter_congr fun id _ => by rw [Bool.eq_iff_iff, haccepts, decide_eq_true_iff]
  have wf : ctx.document.WellFormed := hdoc ▸ wellFormed_empty.run commands
  rw [Step.child, ← Step.plain, evaluate_child_named wf hsettle, hselected]
  exact ⟨fun whole => by simp [whole], fun lacks => by simp [lacks]⟩

/-- Names with several colons are found, in the order of the children, among which there may be an
attribute; a name that lacks a part is not. -/
theorem evaluate_child_ofLexical_colons :
    let commands : List Command := [.createElement (.ofLexical "e") [(.plain "k", "v")],
      .edit ⟨1⟩ (.addElement (.ofLexical "a:b:c") []), .edit ⟨1⟩ (.addElement (.ofLexical ":x") []),
      .edit ⟨1⟩ (.addElement (.ofLexical "a:b:c") []),
      .edit ⟨1⟩ (.setContent [⟨5⟩, ⟨2⟩, ⟨4⟩, ⟨3⟩])]
    let ctx := { Context.ofNode (empty.run commands) ⟨1⟩ with config := { strict := false } }
    (∀ command ∈ commands, command.IsLexical) ∧ ctx.document = empty.run commands ∧
      ctx.prefixes = [] ∧ ctx.config.strict = false ∧
      (¬ IsWildcard "a:b:c" ∧ ¬ LacksPart "a:b:c" ∧
        evaluate .core (.path .context [.child "a:b:c"]) ctx = .ok (.nodes ⟨[⟨5⟩, ⟨3⟩]⟩)) ∧
      (¬ IsWildcard ":x" ∧ LacksPart ":x" ∧
        evaluate .core (.path .context [.child ":x"]) ctx = .ok (.nodes ⟨[]⟩)) := by
  intro commands ctx
  have lexical : ∀ command ∈ commands, command.IsLexical := by decide
  have hwildcard : ¬ IsWildcard "a:b:c" := by decide
  have hwildcard' : ¬ IsWildcard ":x" := by decide
  have hwhole : ¬ LacksPart "a:b:c" := by decide
  have hlacks : LacksPart ":x" := by decide
  have hfound := (@evaluate_child_ofLexical .core ctx "a:b:c" commands lexical rfl rfl rfl
    hwildcard).1 hwhole
  have hgiven : (ctx.document.children ctx.node).filter (empty.NamedAs commands "a:b:c" ·) =
      [⟨5⟩, ⟨3⟩] := by decide +kernel
  rw [hgiven] at hfound
  exact ⟨lexical, rfl, rfl, rfl, ⟨hwildcard, hwhole, hfound⟩, hwildcard', hlacks,
    (evaluate_child_ofLexical lexical rfl rfl rfl hwildcard').2 hlacks⟩

/-- An element is the child that was given the text `:x`, and the step to the children of this name
leads nowhere. -/
theorem evaluate_child_missed :
    let commands : List Command := [.createElement (.ofLexical "e") [],
      .edit ⟨1⟩ (.addElement (.ofLexical ":x") [])]
    let ctx := { Context.ofNode (empty.run commands) ⟨1⟩ with config := { strict := false } }
    (∀ command ∈ commands, command.IsLexical) ∧ ctx.document.IsBranch ctx.node ∧
      ctx.prefixes = [] ∧ ctx.config.strict = false ∧ ¬ IsWildcard ":x" ∧
      (ctx.document.children ctx.node).filter (empty.NamedAs commands ":x" ·) = [⟨2⟩] ∧
      evaluate .core (.path .context [.child ":x"]) ctx = .ok (.nodes ⟨[]⟩) := by
  decide +kernel

end Steps

end XPathTree
