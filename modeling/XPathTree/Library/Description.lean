import XPathTree.Library.Basic
import XPathTree.Text.Quoted

/-!
# Describing a library

A library is shown by the names of its functions, in the order of their
characters.
-/

namespace XPathTree.Library

/-- The names of all functions as they are shown, in order. -/
def labels (library : Library) : List String :=
  (library.names.map (·.label)).mergeSort fun a b => decide (a ≤ b)

/-- A library as it is shown. -/
def describe (library : Library) : String :=
  "FunctionLibrary \x7b functions: [" ++
    String.intercalate ", " (library.labels.map Text.quote) ++ "] \x7d"

end XPathTree.Library
