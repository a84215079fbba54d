import XPathTree.Config.Basic
import XPathTree.EvalError

/-!
# Contexts

An expression is evaluated on a node of a document, which has a position among
the nodes that are looked at, under bindings of variables and prefixes and a
configuration. Of two bindings of one name the first counts.
-/

namespace XPathTree

/-- What an expression is evaluated against. -/
structure Context where
  document : Document
  node : NodeId
  position : Nat
  size : Nat
  bindings : List (String × Value)
  prefixes : List (String × String)
  config : Config
  deriving DecidableEq

namespace Context

/-- The context of a node by itself: the first of one, without bindings, in the
default configuration. -/
def ofNode (document : Document) (node : NodeId) : Context :=
  ⟨document, node, 1, 1, [], [], {}⟩

/-- The same context on another node, at a position among so many. -/
def focus (ctx : Context) (node : NodeId) (position size : Nat) : Context :=
  { ctx with node, position, size }

/-- The value bound to a variable. -/
def valueOf (ctx : Context) (name : String) : Except EvalError Value :=
  match ctx.bindings.lookup name with
  | some value => .ok value
  | none => .error (.unboundVariable name)

/-- The namespace bound to a prefix. Without a binding of its own, `xml` stands for
its namespace. -/
def namespaceOf (ctx : Context) (nsPrefix : String) : Except EvalError String :=
  match ctx.prefixes.lookup nsPrefix with
  | some uri => .ok uri
  | none => if nsPrefix = "xml" then .ok xmlNamespace else .error (.unboundPrefix nsPrefix)

end Context

end XPathTree
