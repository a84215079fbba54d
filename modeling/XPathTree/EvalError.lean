import XPathTree.Library.Signature
import XPathTree.Value.Basic

/-!
# Failed evaluations

The causes for which an evaluation fails, and their wording.
-/

namespace XPathTree

/-- Where a node-set was needed and a value of another type found. -/
inductive TypeFault where
  | notNodeSet (found : ValueType)
  | unionOperand
  | argument (function : String) (found : ValueType)
  deriving DecidableEq

/-- The wording of a type fault. -/
def TypeFault.detail : TypeFault → String
  | notNodeSet found => "expected a node-set, got a " ++ found.label
  | unionOperand => "the operands of '|' must be node-sets"
  | argument function found =>
    function ++ "() argument must be a node-set, got a " ++ found.label

/-- Why an evaluation failed. -/
inductive EvalError where
  | unknownFunction (name : FunctionName)
  | argumentCount (function : FunctionName) (expected : Arity) (found : Nat)
  | unboundVariable (name : String)
  | unboundPrefix (nsPrefix : String)
  | typeFault (fault : TypeFault)
  /-- A function failed for a reason of its own. -/
  | functionFailed (function : String) (reason : String)
  | depthExceeded (limit : Nat)
  deriving DecidableEq

/-- The wording of a failure. -/
def EvalError.message : EvalError → String
  | unknownFunction name => "Unknown XPath function '" ++ name.label ++ "'"
  | argumentCount function expected found =>
    "Function '" ++ function.label ++ "' expects " ++ expected.label ++
      " argument(s), got " ++ toString found
  | unboundVariable name => "Variable '$" ++ name ++ "' is not bound"
  | unboundPrefix nsPrefix => "Namespace prefix '" ++ nsPrefix ++ "' is not bound"
  | typeFault fault => "Type error: " ++ fault.detail
  | functionFailed function reason => "Function '" ++ function ++ "' error: " ++ reason
  | depthExceeded limit =>
    "Expression nesting exceeds the configured limit of " ++ toString limit

/-- The node-set that a value has to be. -/
def Value.nodeSet : Value → Except EvalError NodeSet
  | .nodes set => .ok set
  | value => .error (.typeFault (.notNodeSet value.type))

end XPathTree
