import XPathTree.Value.Basic

/-!
# Comparing values

A comparison with a node-set holds when it holds for some node of it, by the
node's string-value; with a boolean on the other side, the node-set counts as
one value, true when it has nodes. That makes `unequal` more than the negation
of `equal`: both can hold of the same two values.
-/

namespace XPathTree.Value

/-- Whether two values are equal, of some of their nodes if they are node-sets. -/
def equal (doc : Document) (left right : Value) : Bool :=
  match left, right with
  | .nodes a, .nodes b =>
    let texts := b.texts doc
    (a.texts doc).any texts.contains
  | .nodes a, .boolean b => !a.isEmpty == b
  | .boolean a, .nodes b => !b.isEmpty == a
  | .nodes a, .number b => (a.numbers doc).any fun number => number.equals b
  | .number a, .nodes b => (b.numbers doc).any fun number => number.equals a
  | .nodes a, .string b => (a.texts doc).contains b
  | .string a, .nodes b => (b.texts doc).contains a
  | .boolean a, b => a == b.toBool
  | a, .boolean b => a.toBool == b
  | .number a, b => a.equals (b.toNumber doc)
  | a, .number b => (a.toNumber doc).equals b
  | .string a, .string b => a == b

/-- Whether two values differ, in some of their nodes if they are node-sets. -/
def unequal (doc : Document) (left right : Value) : Bool :=
  match left, right with
  | .nodes a, .nodes b =>
    let texts := b.texts doc
    (a.texts doc).any fun text => texts.any (· != text)
  | .nodes a, .number b => (a.numbers doc).any fun number => !number.equals b
  | .number a, .nodes b => (b.numbers doc).any fun number => !number.equals a
  | .nodes a, .string b => (a.texts doc).any (· != b)
  | .string a, .nodes b => (b.texts doc).any (· != a)
  | a, b => !equal doc a b

/-- Whether a relation between numbers holds of two values, or of some of their
nodes if they are node-sets. -/
def related (relation : Double → Double → Bool) (doc : Document) (left right : Value) :
    Bool :=
  match left, right with
  | .nodes a, .nodes b =>
    let numbers := b.numbers doc
    (a.numbers doc).any fun x => numbers.any (relation x)
  | .nodes a, .boolean b => relation (.ofBool !a.isEmpty) (.ofBool b)
  | .boolean a, .nodes b => relation (.ofBool a) (.ofBool !b.isEmpty)
  | .nodes a, b =>
    let number := b.toNumber doc
    (a.numbers doc).any fun x => relation x number
  | a, .nodes b =>
    let number := a.toNumber doc
    (b.numbers doc).any (relation number)
  | a, b => relation (a.toNumber doc) (b.toNumber doc)

end XPathTree.Value
