import XPathTree.Library.Basic
import XPathTree.Value.Operator

/-!
# Evaluation

Evaluation follows the expression. Each operand, argument, filtered expression,
start of a path and predicate is one level deeper than the expression it belongs
to, and no expression deeper than the configured limit is evaluated.

A step looks from each node by itself: the nodes on its axis that pass its test,
nearest first on a reverse axis, are narrowed by each predicate in turn, and what
is left from all nodes is merged into document order.
-/

namespace XPathTree

/-- The name of the function that a written name calls: the first colon ends a
prefix, which has to be bound. -/
def Context.functionName (ctx : Context) (lexical : String) :
    Except EvalError FunctionName :=
  match Text.splitAtFirst ':' lexical.toList with
  | some (before, after) => do
    let uri ← ctx.namespaceOf (String.ofList before)
    .ok ⟨some uri, String.ofList after⟩
  | none => .ok (.core lexical)

/-- Whether the value of a predicate keeps the node at a position: a number keeps
the node that it is the position of, another value keeps every node if it is true. -/
def Value.keeps (position : Nat) : Value → Bool
  | .number value => value.equals (.ofNat position)
  | value => value.toBool

/-- The nodes of a list that `keep` keeps, asked with their positions counted from
`position`. The first failure ends the asking. -/
def keepWhere (keep : NodeId → Nat → Except EvalError Bool) :
    (position : Nat) → List NodeId → Except EvalError (List NodeId)
  | _, [] => .ok []
  | position, node :: nodes => do
    let kept ← keep node position
    let rest ← keepWhere keep (position + 1) nodes
    .ok (if kept then node :: rest else rest)

/-- What `select` gives for each node of a list, in order and joined together. The
first failure ends the selecting. -/
def selectEach (select : NodeId → Except EvalError (List NodeId)) :
    List NodeId → Except EvalError (List NodeId)
  | [] => .ok []
  | node :: nodes => do
    let found ← select node
    let rest ← selectEach select nodes
    .ok (found ++ rest)

/-- The nodes on an axis that pass a test, in order of proximity. -/
def Document.candidates (doc : Document) (axis : Axis) (test : SettledTest)
    (node : NodeId) : List NodeId :=
  let found := (doc.axis axis node).filter fun candidate =>
    test.accepts (doc.kind? candidate)
  if axis.isReverse then found.reverse else found

mutual

/-- The value of an expression at a depth of nesting. -/
def eval (library : Library) (expr : Expr) (ctx : Context) (depth : Nat) :
    Except EvalError Value :=
  if ctx.config.maxDepth < depth then .error (.depthExceeded ctx.config.maxDepth)
  else
    match expr with
    | .literal text => .ok (.string text)
    | .number value => .ok (.number value)
    | .reference name =>
      match ctx.valueOf name with
      | .ok value => .ok value
      | .error cause => if ctx.config.strict then .error cause else .ok (.string "")
    | .call name arguments => do
      let function ← ctx.functionName name
      let values ← evalArguments library arguments ctx (depth + 1)
      library.call function ctx values
    | .path start steps => do
      let set ← evalStart library start ctx depth
      let set ← evalSteps library steps set ctx depth
      .ok (.nodes set)
    | .filter primary predicates => do
      let value ← eval library primary ctx (depth + 1)
      let set ← value.nodeSet
      let kept ← evalPredicates library predicates set.nodes ctx depth
      .ok (.nodes (.ofNodes ctx.document kept))
    | .binary .or left right => do
      let value ← eval library left ctx (depth + 1)
      if value.toBool then .ok (.boolean true)
      else do
        let value ← eval library right ctx (depth + 1)
        .ok (.boolean value.toBool)
    | .binary .and left right => do
      let value ← eval library left ctx (depth + 1)
      if value.toBool then do
        let value ← eval library right ctx (depth + 1)
        .ok (.boolean value.toBool)
      else .ok (.boolean false)
    | .binary op left right => do
      let leftValue ← eval library left ctx (depth + 1)
      let rightValue ← eval library right ctx (depth + 1)
      op.apply ctx.document leftValue rightValue
    | .negate operand => do
      let value ← eval library operand ctx (depth + 1)
      .ok (.number (-value.toNumber ctx.document))
termination_by structural expr

/-- The values of arguments, in order, at their depth of nesting. -/
def evalArguments (library : Library) (arguments : List Expr) (ctx : Context)
    (depth : Nat) : Except EvalError (List Value) :=
  match arguments with
  | [] => .ok []
  | argument :: rest => do
    let value ← eval library argument ctx depth
    let values ← evalArguments library rest ctx depth
    .ok (value :: values)
termination_by structural arguments

/-- The nodes that a path starts from. -/
def evalStart (library : Library) (start : Start) (ctx : Context) (depth : Nat) :
    Except EvalError NodeSet :=
  match start with
  | .context => .ok (.singleton ctx.node)
  | .root => .ok (.singleton (ctx.document.treeRoot ctx.node))
  | .nodes source => do
    let value ← eval library source ctx (depth + 1)
    value.nodeSet
termination_by structural start

/-- The nodes that a sequence of steps leads to. -/
def evalSteps (library : Library) (steps : List Step) (set : NodeSet) (ctx : Context)
    (depth : Nat) : Except EvalError NodeSet :=
  match steps with
  | [] => .ok set
  | step :: rest => do
    let set ← evalStep library step set ctx depth
    evalSteps library rest set ctx depth
termination_by structural steps

/-- The nodes that one step leads to. -/
def evalStep (library : Library) (step : Step) (set : NodeSet) (ctx : Context)
    (depth : Nat) : Except EvalError NodeSet :=
  match step with
  | .mk axis test predicates => do
    let test ← test.settle ctx axis
    let selected ← selectEach
      (fun node =>
        evalPredicates library predicates (ctx.document.candidates axis test node) ctx depth)
      set.nodes
    .ok (.ofNodes ctx.document selected)
termination_by structural step

/-- The nodes of a list, in order of proximity, that meet each predicate in turn. -/
def evalPredicates (library : Library) (predicates : List Expr) (nodes : List NodeId)
    (ctx : Context) (depth : Nat) : Except EvalError (List NodeId) :=
  match predicates with
  | [] => .ok nodes
  | predicate :: rest => do
    let kept ← keepWhere
      (fun node position => do
        let value ← eval library predicate (ctx.focus node position nodes.length) (depth + 1)
        .ok (value.keeps position))
      1 nodes
    evalPredicates library rest kept ctx depth
termination_by structural predicates

end

/-- The value of an expression. -/
def evaluate (library : Library) (expr : Expr) (ctx : Context) : Except EvalError Value :=
  eval library expr ctx 0

/-- The value of an expression as a string. -/
def evaluateText (library : Library) (expr : Expr) (ctx : Context) :
    Except EvalError String :=
  (evaluate library expr ctx).map (·.toText ctx.document)

/-- The value of an expression as a number. -/
def evaluateNumber (library : Library) (expr : Expr) (ctx : Context) :
    Except EvalError Double :=
  (evaluate library expr ctx).map (·.toNumber ctx.document)

/-- The value of an expression as a boolean. -/
def evaluateBool (library : Library) (expr : Expr) (ctx : Context) :
    Except EvalError Bool :=
  (evaluate library expr ctx).map (·.toBool)

/-- The nodes of an expression, which has to be a node-set. -/
def evaluateNodes (library : Library) (expr : Expr) (ctx : Context) :
    Except EvalError NodeSet :=
  (evaluate library expr ctx).bind (·.nodeSet)

end XPathTree
