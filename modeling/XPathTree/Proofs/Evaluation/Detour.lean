import XPathTree.Library.CoreFunction
import XPathTree.Proofs.Axis.Direction
import XPathTree.Proofs.Evaluation.Selection
import XPathTree.Proofs.Value.NodeSet

/-!
# Axes and detours

Some axes lead where a detour over other axes leads: descendants are the children of the node and
of its descendants, ancestors are the parents of the node and of its ancestors, and what follows
or precedes a node is what hangs at the siblings behind or in front of it and of its ancestors.
On a detour the same node may be met many times and in any order. That does not show in the
result, as long as no predicate counts positions on the way: after each step the nodes are a set
again, and a set in document order is given by its members (`evalSteps_detour`).

The detours around a node start at its siblings. Attributes have none, though nodes follow and
precede them, so that these two detours are for other nodes only.
-/

namespace XPathTree

namespace Document

variable {doc : Document} {id parent x : NodeId}

/-- Steps along some axes, one after the other, lead from the first node to the second. -/
def Leads (doc : Document) : List Axis → NodeId → NodeId → Prop
  | [], id, x => x = id
  | axis :: rest, id, x => ∃ via ∈ doc.axis axis id, doc.Leads rest via x

/-- A detour over some axes and a last one leads from a node to where an axis leads. -/
def Detours (doc : Document) (axes : List Axis) (last axis : Axis) (id : NodeId) : Prop :=
  ∀ x, x ∈ doc.axis axis id ↔ ∃ via, doc.Leads axes id via ∧ x ∈ doc.axis last via

theorem leads_singleton_iff {axis : Axis} : doc.Leads [axis] id x ↔ x ∈ doc.axis axis id := by
  simp [Leads]

/-! ## Up and down -/

/-- The ancestors of a node are the parents of the node and of its ancestors. -/
theorem WellFormed.detours_ancestor (wf : doc.WellFormed) (id : NodeId) :
    doc.Detours [.ancestorOrSelf] .parent .ancestor id := by
  intro x
  simp only [leads_singleton_iff, wf.mem_axis_ancestorOrSelf_iff]
  show x ∈ (doc.ancestors id).reverse ↔ ∃ via, doc.AncestorOrSelf via id ∧
    x ∈ (doc.parent? via).toList
  rw [List.mem_reverse, wf.mem_ancestors_iff]
  simp only [Option.mem_toList]
  refine Relation.TransGen.head'_iff.trans (exists_congr fun via => ?_)
  exact and_comm

section Orderly

variable (orderly : doc.Orderly)
include orderly

/-- The descendants of a node are the children of the node and of its descendants. -/
theorem Orderly.detours_descendant (id : NodeId) :
    doc.Detours [.descendantOrSelf] .child .descendant id := by
  intro x
  simp only [leads_singleton_iff]
  by_cases hid : id ∈ doc
  · simp only [orderly.mem_axis_iff _ hid]
    constructor
    · rintro ⟨hbelow, hcontent⟩
      obtain ⟨via, habove, hparent⟩ := Relation.TransGen.tail'_iff.mp hbelow
      have hvia := (orderly.wellFormed.parent_branch x via hparent).isContent
      refine ⟨via, ?_, orderly.mem_children_iff.mpr ⟨hparent, hcontent⟩⟩
      exact (ancestorOrSelf_iff.mp habove).imp Eq.symm fun h => ⟨h, hvia⟩
    · rintro ⟨via, hvia, hchild⟩
      obtain ⟨hparent, hcontent⟩ := orderly.mem_children_iff.mp hchild
      have habove := ancestorOrSelf_iff.mpr (hvia.imp Eq.symm And.left)
      exact ⟨.tail' habove hparent, hcontent⟩
  · -- a handle without a slot has no children, and no axis leads to another handle
    refine iff_of_false (fun hx => ?_) ?_
    · rw [axis, descendants_eq_nil_of_not_mem hid] at hx
      cases hx
    · rintro ⟨via, hvia, hchild⟩
      rw [eq_of_mem_axis_of_not_mem hid hvia] at hchild
      exact hid (mem_of_mem_children hchild)

end Orderly

/-! ## Around a node -/

/-- An axis that adds at each level what hangs at the siblings on one side reaches what hangs at
the siblings of a node and of its ancestors. The climb ends at the root, which has no siblings. -/
theorem WellFormed.detours_of_levels (wf : doc.WellFormed) {side around : Axis}
    (root : ∀ id, doc.parent? id = none → doc.IsContent id →
      doc.axis side id = [] ∧ doc.axis around id = [])
    (child : ∀ id parent, doc.parent? id = some parent → doc.IsContent id → ∀ x,
      x ∈ doc.axis around id ↔
        (∃ sibling ∈ doc.axis side id, x ∈ doc.subtree sibling) ∨ x ∈ doc.axis around parent)
    (hcontent : doc.IsContent id) :
    doc.Detours [.ancestorOrSelf, side] .descendantOrSelf around id := by
  intro x
  have hdetour : (∃ via, doc.Leads [.ancestorOrSelf, side] id via ∧ x ∈ doc.subtree via) ↔
      ∃ above, doc.AncestorOrSelf above id ∧
        ∃ sibling ∈ doc.axis side above, x ∈ doc.subtree sibling := by
    simp only [Leads, wf.mem_axis_ancestorOrSelf_iff]
    grind
  refine .trans ?_ hdetour.symm
  clear hdetour
  induction id using wf.induction with
  | root id h =>
      obtain ⟨hside, haround⟩ := root id h hcontent
      simp [hside, haround, ancestorOrSelf_iff_of_none h]
  | child id parent h ih =>
      rw [child id parent h hcontent, ih (wf.parent_branch id parent h).isContent]
      simp only [ancestorOrSelf_iff_of_parent h, or_and_right, exists_or, exists_eq_left]

section Around

variable (orderly : doc.Orderly) (hcontent : doc.IsContent id)
include orderly hcontent

/-- What follows a node hangs at the siblings behind the node and behind its ancestors. -/
theorem Orderly.detours_following :
    doc.Detours [.ancestorOrSelf, .followingSibling] .descendantOrSelf .following id := by
  refine orderly.wellFormed.detours_of_levels (fun id h hcontent => ?_)
    (fun id parent h hcontent x => ?_) hcontent
  · simp [axis, splitSiblings?_of_none h, following_of_isContent hcontent,
      subtreesBehind_of_none h]
  · have hparent := (orderly.wellFormed.parent_branch id parent h).isContent
    obtain ⟨left, right, hchildren⟩ :=
      List.append_of_mem (orderly.mem_children_iff.mpr ⟨h, hcontent⟩)
    simp only [axis, orderly.splitSiblings?_eq hcontent h hchildren,
      following_of_isContent hcontent, following_of_isContent hparent,
      orderly.subtreesBehind_of_parent hcontent h hchildren, List.mem_append, List.mem_flatMap]
    rfl

/-- What precedes a node hangs at the siblings in front of the node and of its ancestors. -/
theorem Orderly.detours_preceding :
    doc.Detours [.ancestorOrSelf, .precedingSibling] .descendantOrSelf .preceding id := by
  refine orderly.wellFormed.detours_of_levels (fun id h hcontent => ?_)
    (fun id parent h hcontent x => ?_) hcontent
  · simp [axis, splitSiblings?_of_none h, preceding_of_isContent hcontent,
      subtreesInFront_of_none h]
  · have hparent := (orderly.wellFormed.parent_branch id parent h).isContent
    obtain ⟨left, right, hchildren⟩ :=
      List.append_of_mem (orderly.mem_children_iff.mpr ⟨h, hcontent⟩)
    simp only [axis, orderly.splitSiblings?_eq hcontent h hchildren,
      preceding_of_isContent hcontent, preceding_of_isContent hparent,
      orderly.subtreesInFront_of_parent hcontent h hchildren, List.mem_append, List.mem_flatMap]
    exact or_comm

end Around

end Document

/-! ## Steps without predicates -/

section Steps

variable {library : Library} {ctx : Context} {depth : Nat} {set : NodeSet}

/-- A step without predicates. -/
def Step.plain (axis : Axis) (test : NodeTest) : Step := .mk axis test []

/-- A step without predicates leads to all its candidates, if its test can be settled. -/
theorem evalStep_plain (axis : Axis) (test : NodeTest) (set : NodeSet) :
    evalStep library (.plain axis test) set ctx depth =
      (test.settle ctx axis).map fun settled =>
        .ofNodes ctx.document (set.nodes.flatMap (ctx.document.candidates axis settled)) := by
  unfold Step.plain
  rw [evalStep]
  cases test.settle ctx axis with
  | error cause => rfl
  | ok settled =>
      have hfound : selectEach (fun node => evalPredicates library []
            (ctx.document.candidates axis settled node) ctx depth) set.nodes =
          .ok (set.nodes.flatMap (ctx.document.candidates axis settled)) :=
        selectEach_eq_flatMap fun _ _ => rfl
      simp only [bind, Except.bind, hfound]
      rfl

/-- A test asks the same on axes with the same principal type of nodes. -/
theorem settle_eq_of_principal_eq {axis axis' : Axis} (h : axis.principal = axis'.principal)
    (test : NodeTest) : test.settle ctx axis = test.settle ctx axis' := by
  cases test with
  | name nsPrefix localPart => cases nsPrefix <;> simp only [NodeTest.settle, h]
  | node | text | comment | instruction | anyName | anyIn => simp only [NodeTest.settle, h]

/-- Steps to any node along some axes lead to a set of all nodes that the axes lead to. -/
theorem exists_set_of_leads (orderly : ctx.document.Orderly) (axes : List Axis) (set : NodeSet) :
    ∃ reached : NodeSet,
      (∀ x, x ∈ reached.nodes ↔ ∃ id ∈ set.nodes, ctx.document.Leads axes id x) ∧
      ∀ rest, evalSteps library (axes.map (.plain · .node) ++ rest) set ctx depth =
        evalSteps library rest reached ctx depth := by
  induction axes generalizing set with
  | nil => exact ⟨set, by simp [Document.Leads], fun rest => rfl⟩
  | cons axis axes ih =>
      obtain ⟨reached, hreached, hsteps⟩ := ih
        (.ofNodes ctx.document (set.nodes.flatMap (ctx.document.candidates axis .node)))
      refine ⟨reached, fun x => ?_, fun rest => ?_⟩
      · rw [hreached]
        simp only [NodeSet.mem_ofNodes_iff orderly, List.mem_flatMap,
          Document.mem_candidates_iff, Document.Leads]
        grind [SettledTest.accepts]
      · rw [List.map_cons, List.cons_append, evalSteps, evalStep_plain]
        exact hsteps rest

/-- From nodes from which a detour leads where an axis leads, steps along the detour can be taken
exactly if a step along the axis can, and they lead to the same set. -/
theorem evalSteps_detour (orderly : ctx.document.Orderly) {axes : List Axis} {last axis : Axis}
    (detours : ∀ id ∈ set.nodes, ctx.document.Detours axes last axis id)
    (hprincipal : last.principal = axis.principal) (test : NodeTest) :
    evalSteps library (axes.map (.plain · .node) ++ [.plain last test]) set ctx depth =
      evalSteps library [.plain axis test] set ctx depth := by
  obtain ⟨reached, hreached, hsteps⟩ := exists_set_of_leads orderly axes set
  rw [hsteps, evalSteps, evalSteps, evalStep_plain, evalStep_plain,
    settle_eq_of_principal_eq hprincipal]
  cases test.settle ctx axis with
  | error cause => rfl
  | ok settled =>
      refine congrArg Except.ok ((NodeSet.ofNodes_eq_iff orderly).mpr fun x => ?_)
      simp only [List.mem_flatMap, Document.mem_candidates_iff, hreached]
      constructor
      · rintro ⟨via, ⟨id, hid, hvia⟩, hx, haccepts⟩
        exact ⟨id, hid, (detours id hid x).mpr ⟨via, hvia, hx⟩, haccepts⟩
      · rintro ⟨id, hid, hx, haccepts⟩
        obtain ⟨via, hvia, hx⟩ := (detours id hid x).mp hx
        exact ⟨via, ⟨id, hid, hvia⟩, hx, haccepts⟩

/-- Without predicates, steps along the axes downwards and upwards can be taken by way of children
and parents, with the same set or fault, and from nodes other than attributes those along the axes
behind and in front by way of siblings. -/
theorem evalSteps_detours_agree (careful : ctx.document.Careful) (test : NodeTest)
    (set : NodeSet) :
    evalSteps library [.plain .descendantOrSelf .node, .plain .child test] set ctx depth =
      evalSteps library [.plain .descendant test] set ctx depth ∧
    evalSteps library [.plain .ancestorOrSelf .node, .plain .parent test] set ctx depth =
      evalSteps library [.plain .ancestor test] set ctx depth ∧
    ((∀ id ∈ set.nodes, ctx.document.nodeType? id ≠ some .attribute) →
      evalSteps library [.plain .ancestorOrSelf .node, .plain .followingSibling .node,
          .plain .descendantOrSelf test] set ctx depth =
        evalSteps library [.plain .following test] set ctx depth ∧
      evalSteps library [.plain .ancestorOrSelf .node, .plain .precedingSibling .node,
          .plain .descendantOrSelf test] set ctx depth =
        evalSteps library [.plain .preceding test] set ctx depth) := by
  have orderly := careful.orderly
  refine ⟨?_, ?_, fun hcontent => ⟨?_, ?_⟩⟩
  · exact evalSteps_detour orderly (fun id _ => orderly.detours_descendant id) rfl test
  · exact evalSteps_detour orderly (fun id _ => orderly.wellFormed.detours_ancestor id) rfl test
  · exact evalSteps_detour orderly
      (fun id hid => orderly.detours_following (hcontent id hid)) rfl test
  · exact evalSteps_detour orderly
      (fun id hid => orderly.detours_preceding (hcontent id hid)) rfl test

/-- From an element two levels below the root: the detours to the texts around it lead over both
levels. -/
theorem evalSteps_detours_agree_levels :
    let commands : List Command := [.createElement (.plain "e") [], .edit ⟨1⟩ (.addText "s"),
      .edit ⟨1⟩ (.addElement (.plain "f") []), .edit ⟨3⟩ (.addElement (.plain "g") []),
      .edit ⟨4⟩ (.addComment "c"), .edit ⟨1⟩ (.addText "t")]
    let doc := Document.empty.run commands
    let ctx := Context.ofNode doc ⟨1⟩
    let set := NodeSet.singleton ⟨4⟩
    doc.Careful ∧ (∀ id ∈ set.nodes, doc.nodeType? id ≠ some .attribute) ∧
      evalSteps .core [.plain .descendantOrSelf .node, .plain .child .node] set ctx 0 =
        .ok (.singleton ⟨5⟩) ∧
      evalSteps .core [.plain .ancestorOrSelf .node, .plain .parent (.name none "e")] set ctx 0 =
        .ok (.singleton ⟨1⟩) ∧
      evalSteps .core [.plain .ancestorOrSelf .node, .plain .followingSibling .node,
          .plain .descendantOrSelf .text] set ctx 0 = .ok (.singleton ⟨6⟩) ∧
      evalSteps .core [.plain .ancestorOrSelf .node, .plain .precedingSibling .node,
          .plain .descendantOrSelf .text] set ctx 0 = .ok (.singleton ⟨2⟩) := by
  intro commands doc ctx set
  have careful : ctx.document.Careful := ⟨commands, by decide, rfl⟩
  have hcontent : ∀ id ∈ set.nodes, doc.nodeType? id ≠ some .attribute := by decide
  have agree := fun test => @evalSteps_detours_agree .core ctx 0 careful test set
  refine ⟨careful, hcontent, ?_, ?_, ?_, ?_⟩
  · rw [(agree .node).1]
    decide +kernel
  · rw [(agree (.name none "e")).2.1]
    decide +kernel
  · rw [((agree .text).2.2 hcontent).1]
    decide +kernel
  · rw [((agree .text).2.2 hcontent).2]
    decide +kernel

end Steps

end XPathTree
