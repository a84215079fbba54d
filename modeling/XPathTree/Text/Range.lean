/-!
# Ranges of characters

A class of characters is given by the closed ranges of its code points.
-/

namespace XPathTree.Text

/-- Whether a character lies in one of several closed ranges of code points. -/
def inRanges (ranges : List (Nat × Nat)) (c : Char) : Bool :=
  ranges.any fun range => range.1 ≤ c.toNat && c.toNat ≤ range.2

/-- Whether ranges are in ascending order, with a code point between any two. -/
def areAscending (ranges : List (Nat × Nat)) : Bool :=
  ranges.all (fun range => range.1 ≤ range.2) &&
    (ranges.zip ranges.tail).all fun pair => pair.1.2 + 1 < pair.2.1

/-- The number of code points in ranges that are in ascending order. -/
def rangesSize (ranges : List (Nat × Nat)) : Nat :=
  ranges.foldl (fun size range => size + (range.2 + 1 - range.1)) 0

end XPathTree.Text
