import XPathTree.Text.Blank
import XPathTree.Text.Extender
import XPathTree.Text.Other

/-!
# Characters that are not seen

Some characters leave no mark of their own in a text: blanks, code points without a
graphic character, marks that join the character before them, and letters that are
there to fill the place of another.
-/

namespace XPathTree.Text

/-- The code points of letters that fill the place of another letter and are not
displayed, as closed ranges in ascending order. -/
def fillerRanges : List (Nat × Nat) :=
  [(0x115F, 0x1160), (0x3164, 0x3164), (0xFFA0, 0xFFA0)]

/-- A letter that fills the place of another letter. -/
def isFiller (c : Char) : Bool := inRanges fillerRanges c

/-- A character that leaves no mark of its own. -/
def isUnseen (c : Char) : Bool :=
  isWhiteSpace c || isOther c || isExtender c || isFiller c

end XPathTree.Text
