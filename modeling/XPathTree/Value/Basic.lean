import XPathTree.Document.Order
import XPathTree.Double.Arithmetic
import XPathTree.Double.Numeral

/-!
# Node-sets and values

An expression evaluates to a node-set, a string, a number or a boolean. Each type
is converted to the three last ones by the rules of XPath 1.0; a node-set stands
for the string-value of its first node.
-/

namespace XPathTree

/-- A node-set: handles in document order, each once. -/
structure NodeSet where
  nodes : List NodeId
  deriving DecidableEq

namespace NodeSet

/-- The node-set without nodes. -/
def empty : NodeSet := ⟨[]⟩

/-- The node-set with one node. -/
def singleton (id : NodeId) : NodeSet := ⟨[id]⟩

/-- The node-set of handles in any order. -/
def ofNodes (doc : Document) (ids : List NodeId) : NodeSet := ⟨doc.sort ids⟩

/-- The first node in document order. -/
def first? (set : NodeSet) : Option NodeId := set.nodes.head?

/-- The number of nodes. -/
def size (set : NodeSet) : Nat := set.nodes.length

/-- Whether there are no nodes. -/
def isEmpty (set : NodeSet) : Bool := set.nodes.isEmpty

/-- Whether a node is in the set. -/
def contains (set : NodeSet) (id : NodeId) : Bool := set.nodes.contains id

/-- The nodes of both sets. -/
def union (doc : Document) (a b : NodeSet) : NodeSet := ofNodes doc (a.nodes ++ b.nodes)

/-- The string-values of the nodes, in order. -/
def texts (doc : Document) (set : NodeSet) : List String := set.nodes.map doc.stringValue

/-- The string-values of the nodes as numbers, in order. -/
def numbers (doc : Document) (set : NodeSet) : List Double :=
  (set.texts doc).map Double.parse

/-- The string-value of the first node; empty without nodes. -/
def text (doc : Document) (set : NodeSet) : String :=
  (set.first?.map doc.stringValue).getD ""

/-- The sum of the string-values as numbers. It starts at the negative zero, so
that it is negative zero over no nodes. -/
def sum (doc : Document) (set : NodeSet) : Double :=
  (set.numbers doc).foldl (· + ·) (.zero true)

end NodeSet

/-- The types of values. -/
inductive ValueType where
  | nodes
  | string
  | number
  | boolean
  deriving DecidableEq

/-- The name of a type. -/
def ValueType.label : ValueType → String
  | nodes => "node-set"
  | string => "string"
  | number => "number"
  | boolean => "boolean"

/-- What an expression evaluates to. -/
inductive Value where
  | nodes (set : NodeSet)
  | string (text : String)
  | number (value : Double)
  | boolean (value : Bool)
  deriving DecidableEq

namespace Value

/-- The type of a value. -/
def type : Value → ValueType
  | nodes _ => .nodes
  | string _ => .string
  | number _ => .number
  | boolean _ => .boolean

/-- The node-set that a value is. -/
def nodeSet? : Value → Option NodeSet
  | nodes set => some set
  | _ => none

/-- A value as a boolean: true unless it is empty, zero, NaN or false. -/
def toBool : Value → Bool
  | nodes set => !set.isEmpty
  | string text => !text.isEmpty
  | number value => value.isNonzero
  | boolean value => value

/-- A value as a string. -/
def toText (doc : Document) : Value → String
  | nodes set => set.text doc
  | string text => text
  | number value => value.format
  | boolean true => "true"
  | boolean false => "false"

/-- A value as a number. -/
def toNumber (doc : Document) : Value → Double
  | nodes set => .parse (set.text doc)
  | string text => .parse text
  | number value => value
  | boolean value => .ofBool value

end Value

end XPathTree
