import XPathTree.Axis
import XPathTree.Context

/-!
# Node tests

A step keeps those nodes of its axis that pass a test. A test as written may hold
prefixes; it is settled against the bindings of a context before any node is
looked at, and the settled test needs the node alone.
-/

namespace XPathTree

/-- A node test as written. -/
inductive NodeTest where
  /-- Any node. -/
  | node
  | text
  | comment
  /-- A processing instruction, of any target or of the given one. -/
  | instruction (target : Option String)
  /-- Any name. -/
  | anyName
  /-- Any name in the namespace of a prefix. -/
  | anyIn (nsPrefix : String)
  | name (nsPrefix : Option String) (localPart : String)
  deriving DecidableEq

/-- Reads a written name test. The first colon parts prefix from local part, either
of which may be empty; an asterisk as local part stands for any name. -/
def NodeTest.ofLexical (text : String) : NodeTest :=
  match Text.splitAtFirst ':' text.toList with
  | some (before, ['*']) => .anyIn (String.ofList before)
  | some (before, after) => .name (some (String.ofList before)) (String.ofList after)
  | none => if text = "*" then .anyName else .name none text

/-- What a test asks of a name, without reference to any bindings. -/
inductive NameTest where
  | any
  | inNamespace (uri : String)
  /-- The local part, in no namespace and written without a prefix. -/
  | unprefixed (localPart : String)
  | expanded (uri : String) (localPart : String)
  /-- The name as it is written, whatever its namespace. -/
  | written (nsPrefix : String) (localPart : String)
  deriving DecidableEq

/-- Whether a name passes. -/
def NameTest.accepts (name : QName) : NameTest → Bool
  | any => true
  | inNamespace uri => name.uri == some uri
  | unprefixed localPart =>
    name.localPart == localPart && name.uri == none && name.nsPrefix == none
  | expanded uri localPart => name.localPart == localPart && name.uri == some uri
  | written nsPrefix localPart =>
    name.localPart == localPart && name.nsPrefix == some nsPrefix

/-- A node test without reference to any bindings. -/
inductive SettledTest where
  | node
  | ofType (type : NodeType)
  | instruction (target : Option String)
  | named (type : NodeType) (test : NameTest)
  deriving DecidableEq

/-- Whether a node with the given payload passes. -/
def SettledTest.accepts (kind : Option NodeKind) : SettledTest → Bool
  | node => true
  | ofType type => kind.any fun kind => kind.nodeType == type
  | instruction none => kind.any fun kind => kind.nodeType == .instruction
  | instruction (some target) => kind.any fun kind => kind.target? == some target
  | named type test =>
    kind.any fun kind => kind.nodeType == type && kind.name?.any test.accepts

namespace NodeTest

/-- The name test for a prefix and a local part. Where prefixes need not be bound,
one without a binding is compared as written. -/
def settleName (ctx : Context) (nsPrefix localPart : String) : Except EvalError NameTest :=
  match ctx.namespaceOf nsPrefix with
  | .ok uri => .ok (.expanded uri localPart)
  | .error cause => if ctx.config.strict then .error cause else .ok (.written nsPrefix localPart)

/-- Settles a test on an axis against the bindings of a context. -/
def settle (ctx : Context) (axis : Axis) : NodeTest → Except EvalError SettledTest
  | node => .ok .node
  | text => .ok (.ofType .text)
  | comment => .ok (.ofType .comment)
  | instruction target => .ok (.instruction target)
  | anyName => .ok (.named axis.principal .any)
  | anyIn nsPrefix => do
    let uri ← ctx.namespaceOf nsPrefix
    .ok (.named axis.principal (.inNamespace uri))
  | name none localPart => .ok (.named axis.principal (.unprefixed localPart))
  | name (some nsPrefix) localPart => do
    let test ← settleName ctx nsPrefix localPart
    .ok (.named axis.principal test)

end NodeTest

end XPathTree
