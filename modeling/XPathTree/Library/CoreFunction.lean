import XPathTree.Document.Lookup
import XPathTree.Library.Basic
import XPathTree.Text.Search
import XPathTree.Text.Slice

/-!
# The core functions

The 27 functions that XPath 1.0 defines: for each its name, its arity and what it
does. A function takes its arguments apart by itself and refuses a number of them
that it has no use for, whatever arity it is registered with.
-/

namespace XPathTree

/-- The functions of the core library. -/
inductive CoreFunction where
  | last
  | position
  | count
  | id
  | localName
  | namespaceUri
  | name
  | string
  | concat
  | startsWith
  | contains
  | substringBefore
  | substringAfter
  | substring
  | stringLength
  | normalizeSpace
  | translate
  | boolean
  | negation
  | always
  | never
  | lang
  | number
  | sum
  | floor
  | ceiling
  | round
  deriving DecidableEq

namespace CoreFunction

/-- All core functions. -/
def all : List CoreFunction :=
  [last, position, count, id, localName, namespaceUri, name, string, concat, startsWith,
   contains, substringBefore, substringAfter, substring, stringLength, normalizeSpace,
   translate, boolean, negation, always, never, lang, number, sum, floor, ceiling, round]

/-- The name that a function is called by. -/
def label : CoreFunction → String
  | last => "last"
  | position => "position"
  | count => "count"
  | id => "id"
  | localName => "local-name"
  | namespaceUri => "namespace-uri"
  | name => "name"
  | string => "string"
  | concat => "concat"
  | startsWith => "starts-with"
  | contains => "contains"
  | substringBefore => "substring-before"
  | substringAfter => "substring-after"
  | substring => "substring"
  | stringLength => "string-length"
  | normalizeSpace => "normalize-space"
  | translate => "translate"
  | boolean => "boolean"
  | negation => "not"
  | always => "true"
  | never => "false"
  | lang => "lang"
  | number => "number"
  | sum => "sum"
  | floor => "floor"
  | ceiling => "ceiling"
  | round => "round"

/-- How many arguments a function takes. -/
def arity : CoreFunction → Arity
  | last | position | always | never => .exactly 0
  | count | id | boolean | negation | lang | sum | floor | ceiling | round => .exactly 1
  | startsWith | contains | substringBefore | substringAfter => .exactly 2
  | translate => .exactly 3
  | localName | namespaceUri | name | string | stringLength | normalizeSpace | number =>
    .between 0 1
  | substring => .between 2 3
  | concat => .atLeast 2

/-! ## Taking arguments apart -/

/-- The refusal of a number of arguments where so many were expected. -/
def countFault (f : CoreFunction) (expected : Arity) (arguments : List Value) :
    Except EvalError Value :=
  .error (.argumentCount (.core f.label) expected arguments.length)

/-- The refusal of an argument that is no node-set. -/
def nodeSetFault (f : CoreFunction) (found : Value) : Except EvalError Value :=
  .error (.typeFault (.argument f.label found.type))

/-- For functions without arguments. -/
def nullary (f : CoreFunction) (arguments : List Value) (result : Value) :
    Except EvalError Value :=
  match arguments with
  | [] => .ok result
  | _ => f.countFault (.exactly 0) arguments

/-- For functions of one argument. -/
def unary (f : CoreFunction) (arguments : List Value)
    (body : Value → Except EvalError Value) : Except EvalError Value :=
  match arguments with
  | [a] => body a
  | _ => f.countFault (.exactly 1) arguments

/-- For functions of two strings. -/
def ofTwoTexts (f : CoreFunction) (doc : Document) (arguments : List Value)
    (body : List Char → List Char → Value) : Except EvalError Value :=
  match arguments with
  | [a, b] => .ok (body (a.toText doc).toList (b.toText doc).toList)
  | _ => f.countFault (.exactly 2) arguments

/-- For functions of one argument at most. -/
def optional (f : CoreFunction) (arguments : List Value)
    (body : Option Value → Except EvalError Value) : Except EvalError Value :=
  match arguments with
  | [] => body none
  | [a] => body (some a)
  | _ => f.countFault (.between 0 1) arguments

/-- For functions of a string, which is that of the context node if not given. -/
def ofTextOrContext (f : CoreFunction) (ctx : Context) (arguments : List Value)
    (body : String → Value) : Except EvalError Value :=
  f.optional arguments fun
    | some a => .ok (body (a.toText ctx.document))
    | none => .ok (body (ctx.document.stringValue ctx.node))

/-- For functions of a node: the first of a node-set, or the context node if none is
given. Without a node the result is empty. -/
def ofNodeOrContext (f : CoreFunction) (ctx : Context) (arguments : List Value)
    (body : NodeId → String) : Except EvalError Value :=
  f.optional arguments fun
    | none => .ok (.string (body ctx.node))
    | some (.nodes set) => .ok (.string ((set.first?.map body).getD ""))
    | some other => f.nodeSetFault other

/-- For functions of a node-set. -/
def ofNodeSet (f : CoreFunction) (arguments : List Value) (body : NodeSet → Value) :
    Except EvalError Value :=
  f.unary arguments fun
    | .nodes set => .ok (body set)
    | other => f.nodeSetFault other

/-- For functions of a number. -/
def ofNumber (f : CoreFunction) (doc : Document) (arguments : List Value)
    (body : Double → Double) : Except EvalError Value :=
  f.unary arguments fun a => .ok (.number (body (a.toNumber doc)))

/-! ## The functions -/

/-- The text that a value lists identifiers in: a node-set stands for the
string-values of all its nodes. -/
def identifierText (doc : Document) : Value → String
  | .nodes set => String.intercalate " " (set.texts doc)
  | other => other.toText doc

/-- The identifiers that a value lists. -/
def identifiers (doc : Document) (value : Value) : List String :=
  (Text.tokens Text.isTokenBlank (identifierText doc value).toList).map String.ofList

/-- The elements that a value identifies, in the tree of the context node. -/
def select (ctx : Context) (value : Value) : NodeSet :=
  let wanted := identifiers ctx.document value
  if wanted.isEmpty then .empty
  else .ofNodes ctx.document (ctx.document.identified wanted ctx.node)

/-- The part of a text from a rounded position on, over a rounded length if one is
given. -/
def cut (source : String) (start : Double) (length : Option Double) : String :=
  let first := start.round
  let stop := length.map fun length => first + length.round
  String.ofList (Text.slice first stop source.toList)

/-- What a function makes of its arguments. -/
def run (f : CoreFunction) (ctx : Context) (arguments : List Value) :
    Except EvalError Value :=
  let doc := ctx.document
  match f with
  | last => f.nullary arguments (.number (.ofNat ctx.size))
  | position => f.nullary arguments (.number (.ofNat ctx.position))
  | count => f.ofNodeSet arguments fun set => .number (.ofNat set.size)
  | id => f.unary arguments fun a => .ok (.nodes (select ctx a))
  | localName => f.ofNodeOrContext ctx arguments doc.localNameOf
  | namespaceUri => f.ofNodeOrContext ctx arguments doc.namespaceOf
  | name => f.ofNodeOrContext ctx arguments doc.lexicalNameOf
  | string => f.ofTextOrContext ctx arguments .string
  | concat => .ok (.string (String.join (arguments.map (·.toText doc))))
  | startsWith => f.ofTwoTexts doc arguments fun s t => .boolean (t.isPrefixOf s)
  | contains => f.ofTwoTexts doc arguments fun s t => .boolean (Text.occurs t s)
  | substringBefore =>
    f.ofTwoTexts doc arguments fun s t => .string (String.ofList (Text.before t s))
  | substringAfter =>
    f.ofTwoTexts doc arguments fun s t => .string (String.ofList (Text.after t s))
  | substring =>
    match arguments with
    | [source, start] => .ok (.string (cut (source.toText doc) (start.toNumber doc) none))
    | [source, start, length] =>
      .ok (.string
        (cut (source.toText doc) (start.toNumber doc) (some (length.toNumber doc))))
    | _ => f.countFault (.between 2 3) arguments
  | stringLength => f.ofTextOrContext ctx arguments fun s => .number (.ofNat s.length)
  | normalizeSpace =>
    f.ofTextOrContext ctx arguments fun s =>
      .string (String.ofList (Text.normalizeSpace s.toList))
  | translate =>
    match arguments with
    | [text, source, target] =>
      .ok (.string (String.ofList (Text.translate (source.toText doc).toList
        (target.toText doc).toList (text.toText doc).toList)))
    | _ => f.countFault (.exactly 3) arguments
  | boolean => f.unary arguments fun a => .ok (.boolean a.toBool)
  | negation => f.unary arguments fun a => .ok (.boolean !a.toBool)
  | always => f.nullary arguments (.boolean true)
  | never => f.nullary arguments (.boolean false)
  | lang => f.unary arguments fun a => .ok (.boolean (doc.speaks ctx.node (a.toText doc)))
  | number =>
    f.optional arguments fun
      | some a => .ok (.number (a.toNumber doc))
      | none => .ok (.number (.parse (doc.stringValue ctx.node)))
  | sum => f.ofNodeSet arguments fun set => .number (set.sum doc)
  | floor => f.ofNumber doc arguments Double.floor
  | ceiling => f.ofNumber doc arguments Double.ceiling
  | round => f.ofNumber doc arguments Double.round

end CoreFunction

/-- The library of the core functions. -/
def Library.core : Library :=
  CoreFunction.all.foldl
    (fun library f => library.register (.core f.label) ⟨f.arity, f.run⟩) .empty

end XPathTree
