import XPathTree.Document.Walk

/-!
# Names, identifiers and languages of nodes

What the tree says about a node beyond its links: the parts of its name, the
identifiers that its attributes `id` and `xml:id` give it, and the language that
the nearest `xml:lang` puts it in.
-/

namespace XPathTree.Document

/-- The local part of the name of a node, or the target of an instruction; empty
for nodes without a name. -/
def localNameOf (doc : Document) (id : NodeId) : String :=
  match doc.kind? id with
  | some (.element name _) | some (.attribute name _) => name.localPart
  | some (.instruction target _) => target
  | _ => ""

/-- The name of a node as written, or the target of an instruction; empty for
nodes without a name. -/
def lexicalNameOf (doc : Document) (id : NodeId) : String :=
  match doc.kind? id with
  | some (.element name _) | some (.attribute name _) => name.lexical
  | some (.instruction target _) => target
  | _ => ""

/-- The namespace of the name of a node; empty if it has none. -/
def namespaceOf (doc : Document) (id : NodeId) : String :=
  ((doc.name? id).bind (·.uri)).getD ""

/-- Whether a node is an element that one of the given identifiers identifies. -/
def isIdentifiedBy (doc : Document) (wanted : List String) (id : NodeId) : Bool :=
  doc.nodeType? id == some .element &&
    ["id", "xml:id"].any fun lexical =>
      (doc.attribute? id lexical).any fun value => wanted.contains value

/-- The elements in the tree of a node that one of the given identifiers
identifies. -/
def identified (doc : Document) (wanted : List String) (id : NodeId) : List NodeId :=
  (doc.subtree (doc.treeRoot id)).filter (doc.isIdentifiedBy wanted)

/-- The language of a node: the nearest `xml:lang` on it and its ancestors. -/
def language? (doc : Document) (id : NodeId) : Option String :=
  (id :: doc.ancestors id).findSome? fun n => doc.attribute? n "xml:lang"

/-- Whether a language, in lower case, is `wanted` or a variant of it. -/
def isLanguageOrVariant (wanted language : List Char) : Bool :=
  match wanted.isPrefixOf? language with
  | some [] => true
  | some (c :: _) => c == '-'
  | none => false

/-- Whether the language of a node is `wanted` or a variant of it, where ASCII
letters count the same in both cases. -/
def speaks (doc : Document) (id : NodeId) (wanted : String) : Bool :=
  (doc.language? id).any fun language =>
    isLanguageOrVariant (wanted.toList.map Char.toLower)
      (language.toList.map Char.toLower)

end XPathTree.Document
