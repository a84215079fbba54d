import XPathTree.Config.Basic
import XPathTree.Double.Numeral
import XPathTree.Json.Scan

/-!
# Configurations in JSON

A configuration is written as an object with the members `strict`, a boolean, and
`max_depth`, a whole number of at most 64 bits. Each may be left out, and then has
its default; none may be given twice; other members are passed over. An array
gives the settings in that order instead.
-/

namespace XPathTree.Config

/-- The largest nesting that can be configured. -/
def depthBound : Nat := Nat.pow 2 64 - 1

/-- Reads a boolean. -/
def readBool? (text : List Char) : Option Bool :=
  if text = ['t', 'r', 'u', 'e'] then some true
  else if text = ['f', 'a', 'l', 's', 'e'] then some false
  else none

/-- Reads a whole number written in digits alone. -/
def readDepth? (text : List Char) : Option Nat :=
  if text.all Char.isDigit then
    let depth := Numeral.digitsValue text
    if depth ≤ depthBound then some depth else none
  else none

/-- The values of all members with the given key. -/
def valuesOf (key : String) (members : List (String × List Char)) : List (List Char) :=
  (members.filter (·.1 == key)).map (·.2)

/-- Reads a setting that may be left out and may not be given twice. -/
def readSetting? {α : Type} (default : α) (read? : List Char → Option α) :
    List (List Char) → Option α
  | [] => some default
  | [value] => read? value
  | _ => none

/-- Reads a configuration from a JSON text. -/
def ofJson? (text : String) : Option Config := do
  let defaults : Config := {}
  match ← Json.outline? text with
  | .object members =>
    let strict ← readSetting? defaults.strict readBool? (valuesOf "strict" members)
    let maxDepth ← readSetting? defaults.maxDepth readDepth? (valuesOf "max_depth" members)
    some ⟨strict, maxDepth⟩
  | .array elements =>
    if 2 < elements.length then none
    else
      let strict ← readSetting? defaults.strict readBool? (elements.take 1)
      let maxDepth ← readSetting? defaults.maxDepth readDepth? (elements.drop 1)
      some ⟨strict, maxDepth⟩

end XPathTree.Config
