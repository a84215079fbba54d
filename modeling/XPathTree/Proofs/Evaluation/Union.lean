import XPathTree.Library.CoreFunction
import XPathTree.Proofs.Evaluation.Selection
import XPathTree.Proofs.Value.NodeSet

/-!
# Steps from a union

A step looks from each node by itself, and predicates count positions among the candidates of
that one node. So the nodes of a set have no part in what the others lead to: a step can be taken
from the union of two sets exactly when it can be taken from each of them, and it leads to the
union of where it leads to from each (`evalStep_union_iff`). The two results may overlap, even
where the sets do not; that does no harm, since all that the next step starts from is their union.
-/

namespace XPathTree

variable {library : Library} {ctx : Context} {depth : Nat}

/-! ## Unions of node-sets -/

namespace NodeSet

variable {doc : Document} (orderly : doc.Orderly) {a b : NodeSet}
include orderly

theorem subset_union_left : a.nodes ⊆ (a.union doc b).nodes :=
  fun _ hid => (mem_union_iff orderly).mpr (.inl hid)

theorem subset_union_right : b.nodes ⊆ (a.union doc b).nodes :=
  fun _ hid => (mem_union_iff orderly).mpr (.inr hid)

/-- What is found from the nodes of a union is what is found from the nodes of both sets. -/
theorem ofNodes_flatMap_union (each : NodeId → List NodeId) :
    ofNodes doc ((a.union doc b).nodes.flatMap each) =
      (ofNodes doc (a.nodes.flatMap each)).union doc (ofNodes doc (b.nodes.flatMap each)) := by
  refine (inOrder_ofNodes orderly _).eq_of_mem_iff (inOrder_union orderly _ _) fun id => ?_
  simp only [mem_union_iff orderly, mem_ofNodes_iff orderly, List.mem_flatMap, or_and_right,
    exists_or]

end NodeSet

/-- Selecting leaves no choice of what is found. -/
theorem flatMap_eq_of_select {select : NodeId → Except EvalError (List NodeId)}
    {nodes : List NodeId} {each each' : NodeId → List NodeId}
    (h : ∀ node ∈ nodes, select node = .ok (each node))
    (h' : ∀ node ∈ nodes, select node = .ok (each' node)) :
    nodes.flatMap each = nodes.flatMap each' :=
  Except.ok.inj ((selectEach_eq_flatMap h).symm.trans (selectEach_eq_flatMap h'))

/-! ## One step -/

section Step

variable {step : Step} {steps : List Step} {a b set result : NodeSet}

/-- A step can be taken from a union exactly when it can be taken from both sets, and it leads to
the union of where it leads to from each. -/
theorem evalStep_union_iff (orderly : ctx.document.Orderly) :
    evalStep library step (a.union ctx.document b) ctx depth = .ok result ↔
      ∃ first second, evalStep library step a ctx depth = .ok first ∧
        evalStep library step b ctx depth = .ok second ∧
        first.union ctx.document second = result := by
  obtain ⟨axis, test, predicates⟩ := step
  have hleft := NodeSet.subset_union_left orderly (a := a) (b := b)
  have hright := NodeSet.subset_union_right orderly (a := a) (b := b)
  simp only [evalStep_iff]
  constructor
  · rintro ⟨settled, hsettled, each, heach, rfl⟩
    have hfirst := fun node hnode => heach node (hleft hnode)
    have hsecond := fun node hnode => heach node (hright hnode)
    exact ⟨_, _, ⟨settled, hsettled, each, hfirst, rfl⟩, ⟨settled, hsettled, each, hsecond, rfl⟩,
      (NodeSet.ofNodes_flatMap_union orderly each).symm⟩
  · rintro ⟨_, _, ⟨settled, hsettled, each, heach, rfl⟩,
      ⟨settled', hsettled', each', heach', rfl⟩, rfl⟩
    obtain rfl := Except.ok.inj (hsettled.symm.trans hsettled')
    -- the two may differ on a node that is in one set only, but not where both have looked
    have hall : ∀ node ∈ (a.union ctx.document b).nodes, ∃ kept, evalPredicates library predicates
        (ctx.document.candidates axis settled node) ctx depth = .ok kept := by
      intro node hnode
      rcases (NodeSet.mem_union_iff orderly).mp hnode with hnode | hnode
      · exact ⟨each node, heach node hnode⟩
      · exact ⟨each' node, heach' node hnode⟩
    choose! every hevery using hall
    have hfirst := flatMap_eq_of_select (fun node hnode => hevery node (hleft hnode)) heach
    have hsecond := flatMap_eq_of_select (fun node hnode => hevery node (hright hnode)) heach'
    refine ⟨settled, hsettled, every, hevery, ?_⟩
    rw [NodeSet.ofNodes_flatMap_union orderly, hfirst, hsecond]

/-! ## All steps -/

theorem evalSteps_cons_iff : evalSteps library (step :: steps) set ctx depth = .ok result ↔
    ∃ next, evalStep library step set ctx depth = .ok next ∧
      evalSteps library steps next ctx depth = .ok result := by
  constructor
  · exact exists_of_bind_ok
  · rintro ⟨next, hnext, h⟩
    rw [evalSteps, hnext]
    exact h

end Step

/-- Steps can be taken from the union of two node-sets exactly when they can be taken from both,
and they then lead to the union of where they lead to from each. -/
theorem evalSteps_union_iff (careful : ctx.document.Careful) (steps : List Step)
    (a b result : NodeSet) :
    evalSteps library steps (a.union ctx.document b) ctx depth = .ok result ↔
      ∃ first second, evalSteps library steps a ctx depth = .ok first ∧
        evalSteps library steps b ctx depth = .ok second ∧
        first.union ctx.document second = result := by
  induction steps generalizing a b with
  | nil =>
      constructor
      · intro h
        exact ⟨a, b, rfl, rfl, Except.ok.inj h⟩
      · rintro ⟨first, second, hfirst, hsecond, rfl⟩
        cases hfirst
        cases hsecond
        rfl
  | cons step rest ih =>
      simp only [evalSteps_cons_iff, evalStep_union_iff careful.orderly]
      constructor
      · rintro ⟨_, ⟨nextA, nextB, hnextA, hnextB, rfl⟩, h⟩
        obtain ⟨first, second, hfirst, hsecond, rfl⟩ := (ih nextA nextB).mp h
        exact ⟨first, second, ⟨nextA, hnextA, hfirst⟩, ⟨nextB, hnextB, hsecond⟩, rfl⟩
      · rintro ⟨first, second, ⟨nextA, hnextA, hfirst⟩, ⟨nextB, hnextB, hsecond⟩, rfl⟩
        exact ⟨_, ⟨nextA, nextB, hnextA, hnextB, rfl⟩,
          (ih nextA nextB).mpr ⟨first, second, hfirst, hsecond, rfl⟩⟩

/-- Two siblings lead to one parent, and from there to its second child, which is found once. -/
theorem evalSteps_union_siblings :
    let commands : List Command := [.createElement (.plain "e") [], .edit ⟨1⟩ (.addText "s"),
      .edit ⟨1⟩ (.addComment "t")]
    let doc := Document.empty.run commands
    let ctx := Context.ofNode doc ⟨1⟩
    let steps : List Step := [.mk .parent .node [], .mk .child .node [.number (.ofNat 2)]]
    doc.Careful ∧
      evalSteps .core steps (.singleton ⟨2⟩) ctx 0 = .ok (.singleton ⟨3⟩) ∧
      evalSteps .core steps (.singleton ⟨3⟩) ctx 0 = .ok (.singleton ⟨3⟩) ∧
      evalSteps .core steps ((NodeSet.singleton ⟨2⟩).union doc (.singleton ⟨3⟩)) ctx 0 =
        .ok (.singleton ⟨3⟩) := by
  intro commands doc ctx steps
  have careful : ctx.document.Careful := ⟨commands, by decide, rfl⟩
  have hfirst : evalSteps .core steps (.singleton ⟨2⟩) ctx 0 = .ok (.singleton ⟨3⟩) := by
    decide +kernel
  have hsecond : evalSteps .core steps (.singleton ⟨3⟩) ctx 0 = .ok (.singleton ⟨3⟩) := by
    decide +kernel
  have hunion := NodeSet.union_self careful.orderly (NodeSet.inOrder_singleton ⟨3⟩)
  exact ⟨careful, hfirst, hsecond,
    (evalSteps_union_iff careful steps _ _ _).mpr ⟨_, _, hfirst, hsecond, hunion⟩⟩

end XPathTree
