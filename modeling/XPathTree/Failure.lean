import XPathTree.EvalError
import XPathTree.TreeError

/-!
# Failures

A refused edit or a failed evaluation, as reported to whoever asked for it.
-/

namespace XPathTree

/-- What went wrong. -/
inductive Failure where
  | tree (cause : TreeError)
  | evaluation (cause : EvalError)
  deriving DecidableEq

/-- The wording of a failure. -/
def Failure.message : Failure → String
  | tree cause => "Tree operation failed: " ++ cause.message
  | evaluation cause => "XPath evaluation failed: " ++ cause.message

end XPathTree
