import XPathTree.Proofs.Axis.Direction
import XPathTree.Proofs.Evaluation.Parts
import XPathTree.Proofs.Evaluation.Selection
import XPathTree.Proofs.Library.Identifier

/-!
# The node-sets of an evaluation

Wherever evaluation makes a node-set, it is in document order and does not leave the trees
that are within reach: that of the context node, and those of the nodes bound to variables.
Five forms of expressions give node-sets. A variable gives one that is bound; a call of a core
function selects in the tree of the context node; a path starts within reach and no axis
leaves a tree; a filter leaves nodes out; and a union merges two node-sets. Predicates need not
be looked into, since they only leave nodes out.
-/

namespace XPathTree

variable {library : Library} {ctx : Context} {depth : Nat} {set : NodeSet}

/-! ## Expressions that give node-sets -/

theorem eq_nodes_of_nodeSet {value : Value} (h : value.nodeSet = .ok set) :
    value = .nodes set := by
  cases value with
  | nodes found => rw [Except.ok.inj h]
  | string | number | boolean => cases h

theorem valueOf_of_eval_reference {name : String}
    (h : eval library (.reference name) ctx depth = .ok (.nodes set)) :
    ctx.valueOf name = .ok (.nodes set) := by
  rw [eval_reference] at h
  obtain ⟨_, _, h⟩ := exists_of_bind_ok h
  exact (Context.valueOf_of_referent h).resolve_right Value.noConfusion

theorem exists_call_of_eval {name : String} {arguments : List Expr} {value : Value}
    (h : eval library (.call name arguments) ctx depth = .ok value) :
    ∃ function values, library.call function ctx values = .ok value := by
  rw [eval_call] at h
  obtain ⟨_, _, h⟩ := exists_of_bind_ok h
  obtain ⟨function, _, h⟩ := exists_of_bind_ok h
  obtain ⟨values, _, h⟩ := exists_of_bind_ok h
  exact ⟨function, values, h⟩

theorem exists_steps_of_eval_path {start : Start} {steps : List Step}
    (h : eval library (.path start steps) ctx depth = .ok (.nodes set)) :
    ∃ first, evalStart library start ctx depth = .ok first ∧
      evalSteps library steps first ctx depth = .ok set := by
  rw [eval_path] at h
  obtain ⟨_, _, h⟩ := exists_of_bind_ok h
  obtain ⟨first, hfirst, h⟩ := exists_of_bind_ok h
  obtain ⟨last, hlast, h⟩ := exists_of_bind_ok h
  obtain rfl := Value.nodes.inj (Except.ok.inj h)
  exact ⟨first, hfirst, hlast⟩

theorem exists_kept_of_eval_filter {primary : Expr} {predicates : List Expr}
    (h : eval library (.filter primary predicates) ctx depth = .ok (.nodes set)) :
    ∃ all kept, eval library primary ctx (depth + 1) = .ok (.nodes all) ∧
      kept.Sublist all.nodes ∧ set = .ofNodes ctx.document kept := by
  rw [eval_filter] at h
  obtain ⟨_, _, h⟩ := exists_of_bind_ok h
  obtain ⟨value, hvalue, h⟩ := exists_of_bind_ok h
  obtain ⟨all, hall, h⟩ := exists_of_bind_ok h
  obtain ⟨kept, hkept, h⟩ := exists_of_bind_ok h
  rw [eq_nodes_of_nodeSet hall] at hvalue
  exact ⟨all, kept, hvalue, evalPredicates_sublist hkept,
    (Value.nodes.inj (Except.ok.inj h)).symm⟩

theorem eq_nodes_of_unionOperand {value : Value} (h : BinaryOp.unionOperand value = .ok set) :
    value = .nodes set := by
  cases value with
  | nodes found => rw [Except.ok.inj h]
  | string | number | boolean => cases h

/-- Only a union makes a node-set of two values. -/
theorem exists_union_of_apply {op : BinaryOp} {doc : Document} {left right : Value}
    (h : op.apply doc left right = .ok (.nodes set)) :
    ∃ a b, left = .nodes a ∧ right = .nodes b ∧ set = a.union doc b := by
  cases op with
  | union =>
      obtain ⟨a, ha, h⟩ := exists_of_bind_ok h
      obtain ⟨b, hb, h⟩ := exists_of_bind_ok h
      exact ⟨a, b, eq_nodes_of_unionOperand ha, eq_nodes_of_unionOperand hb,
        (Value.nodes.inj (Except.ok.inj h)).symm⟩
  | _ => cases h

theorem exists_union_of_eval_binary {op : BinaryOp} {left right : Expr}
    (h : eval library (.binary op left right) ctx depth = .ok (.nodes set)) :
    ∃ a b, eval library left ctx (depth + 1) = .ok (.nodes a) ∧
      eval library right ctx (depth + 1) = .ok (.nodes b) ∧ set = a.union ctx.document b := by
  rw [eval_binary] at h
  obtain ⟨_, _, h⟩ := exists_of_bind_ok h
  obtain ⟨first, hfirst, h⟩ := exists_of_bind_ok h
  split at h
  · next hdecided =>
      obtain ⟨_, answer, rfl⟩ := BinaryOp.eq_of_decided? hdecided
      cases h
  · obtain ⟨second, hsecond, h⟩ := exists_of_bind_ok h
    obtain ⟨a, b, rfl, rfl, hunion⟩ := exists_union_of_apply h
    exact ⟨a, b, hfirst, hsecond, hunion⟩

/-! ## Reach -/

/-- The node is in the tree of the context node, or in that of a node bound to a variable. -/
def Context.Reaches (ctx : Context) (id : NodeId) : Prop :=
  ctx.document.treeRoot id = ctx.document.treeRoot ctx.node ∨
    ∃ name bound, ctx.valueOf name = .ok (.nodes bound) ∧
      ∃ node ∈ bound.nodes, ctx.document.treeRoot id = ctx.document.treeRoot node

/-- The nodes are in order and within reach. -/
structure NodeSet.Reached (ctx : Context) (set : NodeSet) : Prop where
  inOrder : set.InOrder ctx.document
  reaches : ∀ id ∈ set.nodes, ctx.Reaches id

section Reached

variable (orderly : ctx.document.Orderly)
include orderly

theorem NodeSet.Reached.of_nodes {ids : List NodeId} (h : ∀ id ∈ ids, ctx.Reaches id) :
    (NodeSet.ofNodes ctx.document ids).Reached ctx := by
  refine ⟨inOrder_ofNodes orderly ids, fun id hid => h id ?_⟩
  exact (mem_ofNodes_iff orderly).mp hid

omit orderly in
theorem NodeSet.Reached.of_singleton {id : NodeId} (h : ctx.Reaches id) :
    (NodeSet.singleton id).Reached ctx := by
  refine ⟨inOrder_singleton id, fun x hx => ?_⟩
  rwa [List.mem_singleton.mp hx]

theorem NodeSet.Reached.union {a b : NodeSet} (ha : a.Reached ctx) (hb : b.Reached ctx) :
    (a.union ctx.document b).Reached ctx := by
  refine .of_nodes orderly fun id hid => ?_
  rcases List.mem_append.mp hid with hid | hid
  · exact ha.reaches id hid
  · exact hb.reaches id hid

/-- What `id` selects is in the tree of the context node. -/
theorem reached_select (hnode : ctx.node ∈ ctx.document) (value : Value) :
    (CoreFunction.select ctx value).Reached ctx := by
  refine ⟨CoreFunction.inOrder_select orderly value, fun id hid => .inl ?_⟩
  exact ((CoreFunction.mem_select_iff orderly hnode).mp hid).2.1

/-- A step keeps within reach. -/
theorem reached_evalStep {step : Step} {start : NodeSet} (hfrom : start.Reached ctx)
    (h : evalStep library step start ctx depth = .ok set) : set.Reached ctx := by
  obtain ⟨axis, test, predicates⟩ := step
  obtain ⟨settled, _, each, heach, rfl⟩ := evalStep_iff.mp h
  refine .of_nodes orderly fun id hid => ?_
  -- a selected node is in the tree of the node it is selected from, whatever the predicates
  obtain ⟨node, hnode, hid⟩ := List.mem_flatMap.mp hid
  have htree := orderly.treeRoot_of_mem_axis (mem_axis_of_evalPredicates (heach node hnode) hid)
  have hreaches := hfrom.reaches node hnode
  unfold Context.Reaches at hreaches ⊢
  rwa [htree]

theorem reached_evalSteps {steps : List Step} {first : NodeSet} (hfirst : first.Reached ctx)
    (h : evalSteps library steps first ctx depth = .ok set) : set.Reached ctx := by
  induction steps generalizing first with
  | nil =>
      cases h
      exact hfirst
  | cons step rest ih =>
      obtain ⟨next, hnext, h⟩ := exists_of_bind_ok h
      exact ih (reached_evalStep orderly hfirst hnext) h

/-- A path leads within reach if it starts there. -/
theorem reached_eval_path {start : Start} {steps : List Step}
    (hstart : ∀ first, evalStart library start ctx depth = .ok first → first.Reached ctx)
    (h : eval library (.path start steps) ctx depth = .ok (.nodes set)) : set.Reached ctx := by
  obtain ⟨first, hfirst, hsteps⟩ := exists_steps_of_eval_path h
  exact reached_evalSteps orderly (hstart first hfirst) hsteps

/-- Every node-set that an expression gives is in order and within reach, if those that are
called for and those that are bound are. -/
theorem reached_eval
    (called : ∀ name arguments found,
      library.call name ctx arguments = .ok (.nodes found) → found.Reached ctx)
    (bound : ∀ name found,
      ctx.valueOf name = .ok (.nodes found) → found.InOrder ctx.document) :
    (expr : Expr) → (depth : Nat) → (set : NodeSet) →
      eval library expr ctx depth = .ok (.nodes set) → set.Reached ctx
  | .literal _, _, _, h => by
      rw [eval_literal] at h
      obtain ⟨_, _, h⟩ := exists_of_bind_ok h
      cases h
  | .number _, _, _, h => by
      rw [eval_number] at h
      obtain ⟨_, _, h⟩ := exists_of_bind_ok h
      cases h
  | .reference name, _, set, h => by
      have hvalue := valueOf_of_eval_reference h
      exact ⟨bound name set hvalue, fun id hid => .inr ⟨name, set, hvalue, id, hid, rfl⟩⟩
  | .call _ _, _, set, h => by
      obtain ⟨function, values, hcall⟩ := exists_call_of_eval h
      exact called function values set hcall
  | .path .context _, _, _, h => by
      refine reached_eval_path orderly (fun first hfirst => ?_) h
      cases hfirst
      exact .of_singleton (.inl rfl)
  | .path .root _, _, _, h => by
      refine reached_eval_path orderly (fun first hfirst => ?_) h
      cases hfirst
      have hroot := orderly.wellFormed.parent?_treeRoot ctx.node
      exact .of_singleton (.inl (Document.treeRoot_of_none hroot))
  | .path (.nodes source) _, depth, _, h => by
      refine reached_eval_path orderly (fun first hfirst => ?_) h
      obtain ⟨value, hvalue, hset⟩ := exists_of_bind_ok hfirst
      rw [eq_nodes_of_nodeSet hset] at hvalue
      exact reached_eval called bound source (depth + 1) first hvalue
  | .filter primary _, depth, _, h => by
      obtain ⟨all, kept, hall, hkept, rfl⟩ := exists_kept_of_eval_filter h
      have hreached := reached_eval called bound primary (depth + 1) all hall
      exact .of_nodes orderly fun id hid => hreached.reaches id (hkept.subset hid)
  | .binary _ left right, depth, _, h => by
      obtain ⟨a, b, ha, hb, rfl⟩ := exists_union_of_eval_binary h
      exact .union orderly (reached_eval called bound left (depth + 1) a ha)
        (reached_eval called bound right (depth + 1) b hb)
  | .negate _, _, _, h => by
      rw [eval_negate] at h
      obtain ⟨_, _, h⟩ := exists_of_bind_ok h
      obtain ⟨value, _, h⟩ := exists_of_bind_ok h
      cases h

/-- What the core library gives is within reach. -/
theorem reached_call_core (hnode : ctx.node ∈ ctx.document) {name : FunctionName}
    {arguments : List Value} (h : Library.core.call name ctx arguments = .ok (.nodes set)) :
    set.Reached ctx := by
  obtain ⟨f, _, hrun⟩ := Library.exists_run_of_call_core h
  obtain ⟨value, rfl⟩ := CoreFunction.exists_select_of_run hrun
  exact reached_select orderly hnode value

end Reached

/-- Every node-set that an expression gives with the core library is in strictly increasing
document order, and each of its nodes is in the tree of the context node or in the tree of a
node bound to a variable, provided that the node-sets bound to variables are in strictly
increasing document order. -/
theorem evaluate_reaches (careful : ctx.document.Careful) (hnode : ctx.node ∈ ctx.document)
    (bound : ∀ name found, ctx.valueOf name = .ok (.nodes found) →
      ctx.document.InOrder found.nodes)
    {expr : Expr} (h : evaluate .core expr ctx = .ok (.nodes set)) :
    ctx.document.InOrder set.nodes ∧
      ∀ id ∈ set.nodes, ctx.document.treeRoot id = ctx.document.treeRoot ctx.node ∨
        ∃ name found, ctx.valueOf name = .ok (.nodes found) ∧
          ∃ node ∈ found.nodes, ctx.document.treeRoot id = ctx.document.treeRoot node := by
  have orderly := careful.orderly
  have hreached := reached_eval orderly (fun _ _ _ => reached_call_core orderly hnode) bound
    expr 0 set h
  exact ⟨hreached.inOrder, hreached.reaches⟩

/-- The child of a node that a variable is bound to, in a tree that the context node is not
in. -/
theorem evaluate_reaches_detached :
    let commands : List Command := [.createElement (.plain "e") [],
      .edit ⟨1⟩ (.addText "s"), .createElement (.plain "f") [], .edit ⟨3⟩ (.addText "t")]
    let doc := Document.empty.run commands
    let ctx := { Context.ofNode doc ⟨1⟩ with bindings := [("v", .nodes (.singleton ⟨3⟩))] }
    let expr := Expr.path (.nodes (.reference "v")) [.mk .child .node []]
    doc.Careful ∧ ctx.node ∈ doc ∧
      (∀ name found, ctx.valueOf name = .ok (.nodes found) → doc.InOrder found.nodes) ∧
      evaluate .core expr ctx = .ok (.nodes (.singleton ⟨4⟩)) ∧
      doc.treeRoot ⟨4⟩ ≠ doc.treeRoot ctx.node ∧
      ∃ name found, ctx.valueOf name = .ok (.nodes found) ∧
        ∃ node ∈ found.nodes, doc.treeRoot ⟨4⟩ = doc.treeRoot node := by
  intro commands doc ctx expr
  have careful : doc.Careful := ⟨commands, by decide, rfl⟩
  have hnode : ctx.node ∈ doc := by decide
  have bound : ∀ name found, ctx.valueOf name = .ok (.nodes found) → doc.InOrder found.nodes := by
    intro name found h
    simp only [Context.valueOf, ctx, List.lookup_cons, List.lookup_nil] at h
    split at h
    · next value hvalue =>
        split at hvalue
        · cases hvalue
          cases h
          exact .singleton _
        · cases hvalue
    · cases h
  have hvalue : evaluate .core expr ctx = .ok (.nodes (.singleton ⟨4⟩)) := by decide +kernel
  have hother : doc.treeRoot ⟨4⟩ ≠ doc.treeRoot ctx.node := by decide
  obtain ⟨_, hreaches⟩ := evaluate_reaches careful hnode bound hvalue
  exact ⟨careful, hnode, bound, hvalue, hother,
    (hreaches ⟨4⟩ List.mem_cons_self).resolve_left hother⟩

end XPathTree
