import XPathTree.Text.Split

/-!
# Qualified names

A name of an element or an attribute: a local part, and possibly the prefix it
was written with and the URI of its namespace. Names are told apart by URI and
local part where a URI is known, and by the written prefix where it is not.
-/

namespace XPathTree

/-- The URI that the prefix `xml` stands for everywhere. -/
def xmlNamespace : String := "http://www.w3.org/XML/1998/namespace"

/-- A qualified name. -/
structure QName where
  nsPrefix : Option String
  localPart : String
  uri : Option String
  deriving DecidableEq

namespace QName

/-- A name without prefix and namespace. -/
def plain (localPart : String) : QName := ⟨none, localPart, none⟩

/-- Reads a written name. The first colon parts prefix from local part if both
are non-empty, and only the prefix `xml` brings its namespace along; any other
text is a plain name. -/
def ofLexical (text : String) : QName :=
  match Text.splitAtFirst ':' text.toList with
  | some (p :: before, c :: after) =>
    let nsPrefix := String.ofList (p :: before)
    { nsPrefix := some nsPrefix
      localPart := String.ofList (c :: after)
      uri := if nsPrefix = "xml" then some xmlNamespace else none }
  | _ => plain text

/-- The name as it is written, such as `xml:lang`. -/
def lexical (name : QName) : String :=
  match name.nsPrefix with
  | some nsPrefix => nsPrefix ++ ":" ++ name.localPart
  | none => name.localPart

/-- Two names denote the same thing: their local parts agree, and so do their
namespaces or, where neither has one, the prefixes they are written with. -/
def denotesSame (a b : QName) : Bool :=
  a.localPart == b.localPart &&
    match a.uri, b.uri with
    | some u, some v => u == v
    | none, none => a.nsPrefix == b.nsPrefix
    | _, _ => false

theorem denotesSame_refl (a : QName) : a.denotesSame a = true := by
  cases h : a.uri <;> simp [denotesSame, h]

end QName

end XPathTree
