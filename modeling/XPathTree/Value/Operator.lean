import XPathTree.Expr
import XPathTree.Value.Comparison
import XPathTree.Double.Arithmetic

/-!
# Operators on values

What the binary operators make of two values. Only `|` makes demands on them;
`or` and `and` are given here for operands that are both known.
-/

namespace XPathTree

namespace BinaryOp

/-- The relation between numbers that an ordering operator tests; it holds of no
numbers for the other operators. -/
def relation : BinaryOp → Double → Double → Bool
  | .less, x, y => x.lessThan y
  | .lessOrEqual, x, y => x.lessOrEqual y
  | .greater, x, y => y.lessThan x
  | .greaterOrEqual, x, y => y.lessOrEqual x
  | _, _, _ => false

/-- The node-set that an operand of `|` has to be. -/
def unionOperand (value : Value) : Except EvalError NodeSet :=
  match value with
  | .nodes set => .ok set
  | _ => .error (.typeFault .unionOperand)

/-- Applies an operator to two values. -/
def apply (op : BinaryOp) (doc : Document) (left right : Value) : Except EvalError Value :=
  match op with
  | .or => .ok (.boolean (left.toBool || right.toBool))
  | .and => .ok (.boolean (left.toBool && right.toBool))
  | .equal => .ok (.boolean (Value.equal doc left right))
  | .unequal => .ok (.boolean (Value.unequal doc left right))
  | .less | .lessOrEqual | .greater | .greaterOrEqual =>
    .ok (.boolean (Value.related op.relation doc left right))
  | .add => .ok (.number (left.toNumber doc + right.toNumber doc))
  | .subtract => .ok (.number (left.toNumber doc - right.toNumber doc))
  | .multiply => .ok (.number (left.toNumber doc * right.toNumber doc))
  | .divide => .ok (.number (left.toNumber doc / right.toNumber doc))
  | .modulo => .ok (.number (left.toNumber doc % right.toNumber doc))
  | .union => do
    let a ← unionOperand left
    let b ← unionOperand right
    .ok (.nodes (a.union doc b))

end BinaryOp

end XPathTree
