import XPathTree.NodeTest

/-!
# Expressions

The expressions of XPath 1.0 as data: literals, numbers, variables, calls,
location paths, filters and operators.
-/

namespace XPathTree

/-- The operators between two expressions. -/
inductive BinaryOp where
  | or
  | and
  | equal
  | unequal
  | less
  | lessOrEqual
  | greater
  | greaterOrEqual
  | add
  | subtract
  | multiply
  | divide
  | modulo
  | union
  deriving DecidableEq

mutual

/-- An expression. -/
inductive Expr where
  | literal (text : String)
  | number (value : Double)
  /-- A reference to a variable, by its name without the dollar sign. -/
  | reference (name : String)
  /-- A call of a function by its written name. -/
  | call (name : String) (arguments : List Expr)
  | path (start : Start) (steps : List Step)
  | filter (primary : Expr) (predicates : List Expr)
  | binary (op : BinaryOp) (left right : Expr)
  | negate (operand : Expr)

/-- Where a location path starts. -/
inductive Start where
  /-- At the context node. -/
  | context
  /-- At the root of the tree of the context node. -/
  | root
  /-- At the nodes of an expression. -/
  | nodes (source : Expr)

/-- A step of a location path: an axis, a test, and predicates to be met in turn. -/
inductive Step where
  | mk (axis : Axis) (test : NodeTest) (predicates : List Expr)

end

/-- Whether an expression is a location path. -/
def Expr.isPath : Expr → Bool
  | .path .. => true
  | _ => false

/-- Whether an expression is an operator between two expressions. -/
def Expr.isBinary : Expr → Bool
  | .binary .. => true
  | _ => false

/-- A step along the child axis to nodes of a written name. -/
def Step.child (lexical : String) : Step := ⟨.child, .ofLexical lexical, []⟩

/-- A step along the attribute axis to nodes of a written name. -/
def Step.attribute (lexical : String) : Step := ⟨.attribute, .ofLexical lexical, []⟩

end XPathTree
