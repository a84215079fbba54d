/-!
# Configuration

The two settings of an evaluation.
-/

namespace XPathTree

/-- How expressions are evaluated. -/
structure Config where
  /-- Whether references to unbound variables, and name tests with unbound
  prefixes, are errors. -/
  strict : Bool := true
  /-- The deepest nesting of expressions that is evaluated. -/
  maxDepth : Nat := 256
  deriving DecidableEq

end XPathTree
