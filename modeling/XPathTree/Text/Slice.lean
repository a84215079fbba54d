import XPathTree.Double.Basic

/-!
# Slices of text by position

Characters are counted from 1. A slice starts at a number and goes on to another one, or to the
end of the text.
-/

namespace XPathTree.Text

/-- The characters whose positions are at least `first` and, where a `stop` is given, below it. -/
def slice (first : Double) (stop : Option Double) (text : List Char) : List Char :=
  (text.zipIdx 1).filterMap fun (c, position) =>
    let place := Double.ofNat position
    if first.lessOrEqual place && stop.all place.lessThan then some c else none

end XPathTree.Text
