import XPathTree.Proofs.Evaluation.Conversion
import XPathTree.Proofs.Evaluation.Proximity

/-!
# Predicates that are numbers

A predicate that is a number keeps the node at this position. The comparison of the number with
`position()` says the same in other words, and is evaluated in another way: by a call of the
function, a comparison of two values and the truth of the result, where the number itself is
evaluated one level deeper (`eval_atPosition`). That a predicate can be replaced by the comparison
wherever it stands needs that nothing else in the expression is evaluated differently: neither
what comes before, which decides what nodes the predicate meets, nor what comes after, which is
given the nodes that it leaves. So the expression is taken apart into its predicates and the place
where they stand (`Site`), and two lists of predicates make no difference there if they agree on
the lists of nodes that they are given (`eval_fill_congr`).
-/

namespace XPathTree

variable {library : Library} {ctx : Context} {depth : Nat} {expr : Expr}

/-! ## The comparison -/

theorem eval_call_position (within : depth ≤ ctx.config.maxDepth) :
    eval .core (.call "position" []) ctx depth = .ok (.number (.ofNat ctx.position)) :=
  (eval_call_core .position [] within).trans (Library.call_core .position ctx [])

theorem eval_call_last (within : depth ≤ ctx.config.maxDepth) :
    eval .core (.call "last" []) ctx depth = .ok (.number (.ofNat ctx.size)) :=
  (eval_call_core .last [] within).trans (Library.call_core .last ctx [])

/-- The comparison of an expression with the position. -/
def Expr.atPosition (expr : Expr) : Expr := .binary .equal expr (.call "position" [])

/-- A number is equal to the position or is not, and evaluates one level deeper to what it
evaluates to here. -/
theorem eval_atPosition {number : Double}
    (within : depth + expr.atPosition.nesting ≤ ctx.config.maxDepth)
    (hnumber : eval .core expr ctx depth = .ok (.number number)) :
    eval .core expr.atPosition ctx depth =
      .ok (.boolean (number.equals (.ofNat ctx.position))) := by
  have hdepth : ctx.checkDepth depth = .ok () := if_neg (by omega)
  have hexpr : expr.nesting < expr.atPosition.nesting :=
    Expr.nesting_lt_of_mem_parts List.mem_cons_self
  unfold Expr.atPosition
  rw [eval_binary, hdepth, eval_succ_depth (by omega), hnumber, eval_call_position (by omega)]
  rfl

/-- To ask the comparison of a node is to ask the number. -/
theorem ask_atPosition {node : NodeId} {position size : Nat} {number : Double}
    (within : depth + 1 + expr.atPosition.nesting ≤ ctx.config.maxDepth)
    (hnumber : eval .core expr (ctx.focus node position size) (depth + 1) = .ok (.number number)) :
    ask .core ctx depth expr.atPosition size node position =
      ask .core ctx depth expr size node position := by
  have hcomparison : eval .core expr.atPosition (ctx.focus node position size) (depth + 1) =
      .ok (.boolean (number.equals (.ofNat position))) := eval_atPosition within hnumber
  unfold ask
  rw [hcomparison, hnumber]
  rfl

/-! ## What is asked and selected -/

theorem keepWhere_congr {keep keep' : NodeId → Nat → Except EvalError Bool} {position : Nat}
    {nodes : List NodeId}
    (h : ∀ i (hi : i < nodes.length), keep' nodes[i] (position + i) = keep nodes[i] (position + i)) :
    keepWhere keep' position nodes = keepWhere keep position nodes := by
  induction nodes generalizing position with
  | nil => rfl
  | cons node nodes ih =>
      have hnode : keep' node position = keep node position := h 0 (Nat.zero_lt_succ _)
      have hrest : keepWhere keep' (position + 1) nodes = keepWhere keep (position + 1) nodes := by
        refine ih fun i hi => ?_
        rw [Nat.add_right_comm]
        exact h (i + 1) (Nat.succ_lt_succ hi)
      rw [keepWhere, keepWhere, hnode, hrest]

/-- Nothing is selected from the nodes behind the first for which it fails. -/
theorem selectEach_congr {select select' : NodeId → Except EvalError (List NodeId)}
    {nodes : List NodeId}
    (h : ∀ done node rest, nodes = done ++ node :: rest →
      (∀ other ∈ done, ∃ found, select other = .ok found) → select' node = select node) :
    selectEach select' nodes = selectEach select nodes := by
  induction nodes with
  | nil => rfl
  | cons head nodes ih =>
      rw [selectEach, selectEach, h [] head nodes rfl (List.forall_mem_nil _)]
      cases hhead : select head with
      | error cause => rfl
      | ok found =>
          have hrest : selectEach select' nodes = selectEach select nodes := by
            refine ih fun done node rest hnodes hdone => ?_
            exact h (head :: done) node rest (congrArg _ hnodes)
              (List.forall_mem_cons.mpr ⟨⟨found, hhead⟩, hdone⟩)
          rw [hrest]

theorem evalPredicates_append (before after : List Expr) (nodes : List NodeId) :
    evalPredicates library (before ++ after) nodes ctx depth = (do
      let left ← evalPredicates library before nodes ctx depth
      evalPredicates library after left ctx depth) := by
  induction before generalizing nodes with
  | nil => rfl
  | cons predicate before ih =>
      rw [List.cons_append, evalPredicates, evalPredicates, bind_assoc]
      exact congrArg _ (funext ih)

theorem evalSteps_append (front back : List Step) (set : NodeSet) :
    evalSteps library (front ++ back) set ctx depth = (do
      let set ← evalSteps library front set ctx depth
      evalSteps library back set ctx depth) := by
  induction front generalizing set with
  | nil => rfl
  | cons step front ih =>
      rw [List.cons_append, evalSteps, evalSteps, bind_assoc]
      exact congrArg _ (funext ih)

/-! ## Where predicates stand -/

/-- An expression without the predicates at one place in it. -/
inductive Site where
  /-- Behind an expression that they filter. -/
  | filter (primary : Expr)
  /-- In a step of a path, between those in front and those behind. -/
  | step (start : Start) (front : List Step) (axis : Axis) (test : NodeTest) (back : List Step)

namespace Site

variable {site : Site} {predicates : List Expr}

/-- The expression with these predicates. -/
def fill : Site → List Expr → Expr
  | filter primary, predicates => .filter primary predicates
  | step start front axis test back, predicates =>
    .path start (front ++ .mk axis test predicates :: back)

/-- The lists of nodes that evaluation gives the predicates: the nodes that are filtered, or the
candidates of each node that the step looks from, as long as the predicates have not failed for
the candidates of one in front. -/
inductive Presents (ctx : Context) (depth : Nat) (predicates : List Expr) :
    Site → List NodeId → Prop where
  | filter {primary : Expr} {value : Value} {set : NodeSet}
      (hvalue : eval .core primary ctx (depth + 1) = .ok value) (hset : value.nodeSet = .ok set) :
      Presents ctx depth predicates (.filter primary) set.nodes
  | step {start : Start} {front : List Step} {axis : Axis} {test : NodeTest} {back : List Step}
      {first set : NodeSet} {settled : SettledTest} {done rest : List NodeId} {node : NodeId}
      (hstart : evalStart .core start ctx depth = .ok first)
      (hfront : evalSteps .core front first ctx depth = .ok set)
      (hsettled : test.settle ctx axis = .ok settled)
      (hnodes : set.nodes = done ++ node :: rest)
      (hdone : ∀ other ∈ done, ∃ kept, evalPredicates .core predicates
        (ctx.document.candidates axis settled other) ctx depth = .ok kept) :
      Presents ctx depth predicates (.step start front axis test back)
        (ctx.document.candidates axis settled node)

/-- A list that a predicate narrows: what those in front of it have left of a list presented. -/
def Meets (site : Site) (ctx : Context) (depth : Nat) (before : List Expr) (predicate : Expr)
    (after : List Expr) (left : List NodeId) : Prop :=
  ∃ nodes, site.Presents ctx depth (before ++ predicate :: after) nodes ∧
    evalPredicates .core before nodes ctx depth = .ok left

theorem mem_parts_fill {predicate : Expr} (h : predicate ∈ predicates) :
    predicate ∈ (site.fill predicates).parts := by
  cases site with
  | filter primary => exact List.mem_cons_of_mem primary h
  | step start front axis test back =>
      refine List.mem_append_right _ (List.mem_flatMap.mpr ⟨.mk axis test predicates, ?_, h⟩)
      exact List.mem_append_right front List.mem_cons_self

/-- Predicates that narrow what is presented in the same way make the same expression. -/
theorem eval_fill_congr {predicates' : List Expr}
    (h : ∀ nodes, site.Presents ctx depth predicates nodes →
      evalPredicates .core predicates' nodes ctx depth =
        evalPredicates .core predicates nodes ctx depth) :
    eval .core (site.fill predicates') ctx depth = eval .core (site.fill predicates) ctx depth := by
  cases site with
  | filter primary =>
      unfold fill
      rw [eval_filter, eval_filter]
      refine congrArg _ (funext fun _ => ?_)
      cases hvalue : eval .core primary ctx (depth + 1) with
      | error cause => rfl
      | ok value =>
          cases hset : value.nodeSet with
          | error cause => simp only [bind, Except.bind, hset]
          | ok set => simp only [bind, Except.bind, hset, h set.nodes (.filter hvalue hset)]
  | step start front axis test back =>
      unfold fill
      rw [eval_path, eval_path]
      refine congrArg _ (funext fun _ => ?_)
      cases hstart : evalStart .core start ctx depth with
      | error cause => rfl
      | ok first =>
          simp only [bind, Except.bind, evalSteps_append]
          cases hfront : evalSteps .core front first ctx depth with
          | error cause => rfl
          | ok set =>
              simp only [evalSteps, evalStep, bind, Except.bind]
              cases hsettled : test.settle ctx axis with
              | error cause => rfl
              | ok settled =>
                  have hselected := selectEach_congr fun done node rest hnodes hdone =>
                    h _ (.step hstart hfront hsettled hnodes hdone)
                  simp only [hselected]

end Site

/-! ## A predicate replaced -/

/-- A predicate that is a number wherever it is met can be replaced by its comparison with the
position: the filter or the path has the same value or the same fault. -/
theorem eval_fill_atPosition (site : Site) (before after : List Expr) (predicate : Expr)
    (within : depth + (site.fill (before ++ predicate.atPosition :: after)).nesting ≤
      ctx.config.maxDepth)
    (numeric : ∀ left, site.Meets ctx depth before predicate after left →
      ∀ i (h : i < left.length), ∃ number,
        eval .core predicate (ctx.focus left[i] (i + 1) left.length) (depth + 1) =
          .ok (.number number)) :
    eval .core (site.fill (before ++ predicate.atPosition :: after)) ctx depth =
      eval .core (site.fill (before ++ predicate :: after)) ctx depth := by
  have hpart : predicate.atPosition ∈ (site.fill (before ++ predicate.atPosition :: after)).parts :=
    Site.mem_parts_fill (List.mem_append_right before List.mem_cons_self)
  have hlt := Expr.nesting_lt_of_mem_parts hpart
  refine Site.eval_fill_congr fun nodes presents => ?_
  rw [evalPredicates_append, evalPredicates_append]
  cases hleft : evalPredicates .core before nodes ctx depth with
  | error cause => rfl
  | ok left =>
      have hasked : keepWhere (ask .core ctx depth predicate.atPosition left.length) 1 left =
          keepWhere (ask .core ctx depth predicate left.length) 1 left := by
        refine keepWhere_congr fun i hi => ?_
        obtain ⟨number, hnumber⟩ := numeric left ⟨nodes, presents, hleft⟩ i hi
        rw [Nat.add_comm 1 i]
        exact ask_atPosition (by omega) hnumber
      exact congrArg (· >>= fun kept => evalPredicates .core after kept ctx depth) hasked

/-- Of the siblings in front of a node, the first predicate leaves out the nearest. The farthest
is then the second of two, which is where the second predicate finds it. -/
theorem eval_fill_atPosition_last :
    let commands : List Command := [.createElement (.plain "e") [],
      .edit ⟨1⟩ (.addText "s"), .edit ⟨1⟩ (.addComment "t"), .edit ⟨1⟩ (.addText "u"),
      .edit ⟨1⟩ (.addComment "v")]
    let ctx := Context.ofNode (Document.empty.run commands) ⟨5⟩
    let site := Site.step .context [] .precedingSibling .node []
    let first := Expr.number (.ofNat 1)
    let other := Expr.binary .unequal (.call "position" []) first
    let last := Expr.call "last" []
    0 + (site.fill [other, last.atPosition, first]).nesting ≤ ctx.config.maxDepth ∧
      (∀ left, site.Meets ctx 0 [other] last [first] left → ∀ i (h : i < left.length), ∃ number,
        eval .core last (ctx.focus left[i] (i + 1) left.length) 1 = .ok (.number number)) ∧
      eval .core (site.fill [other, last.atPosition, first]) ctx 0 =
        .ok (.nodes (.singleton ⟨2⟩)) ∧
      eval .core (site.fill [other, last, first]) ctx 0 = .ok (.nodes (.singleton ⟨2⟩)) := by
  intro commands ctx site first other last
  have hnesting : (site.fill [other, last.atPosition, first]).nesting ≤ 3 := by
    simp [site, other, last, first, Site.fill, Expr.atPosition, Expr.nesting_le_iff, Expr.parts,
      Start.parts, Step.predicates, Nat.lt_succ_iff]
  have within : 0 + (site.fill [other, last.atPosition, first]).nesting ≤ ctx.config.maxDepth :=
    (Nat.zero_add _).le.trans (hnesting.trans (by decide))
  have numeric : ∀ left, site.Meets ctx 0 [other] last [first] left →
      ∀ i (h : i < left.length), ∃ number,
        eval .core last (ctx.focus left[i] (i + 1) left.length) 1 = .ok (.number number) := by
    intro left _ i _
    have hdepth : 1 ≤ ctx.config.maxDepth := by decide
    exact ⟨.ofNat left.length, eval_call_last hdepth⟩
  have hresult : eval .core (site.fill [other, last, first]) ctx 0 =
      .ok (.nodes (.singleton ⟨2⟩)) := by decide +kernel
  have hreplaced := eval_fill_atPosition site [other] [first] last within numeric
  exact ⟨within, numeric, hreplaced.trans hresult, hresult⟩

end XPathTree
