import XPathTree.Text.Range

/-!
# Blank characters

Three sets of characters count as blank, each in its own place. Data blocks of
processing instructions go by the Unicode property `White_Space`; numerals and
space normalisation know the four blanks of markup; lists of identifiers know
those four and the form feed.
-/

namespace XPathTree.Text

/-- The code points with the Unicode property `White_Space`, as closed ranges
in ascending order. -/
def whiteSpaceRanges : List (Nat × Nat) :=
  [(0x9, 0xD), (0x20, 0x20), (0x85, 0x85), (0xA0, 0xA0), (0x1680, 0x1680),
   (0x2000, 0x200A), (0x2028, 0x2029), (0x202F, 0x202F), (0x205F, 0x205F),
   (0x3000, 0x3000)]

/-- A character with the Unicode property `White_Space`. -/
def isWhiteSpace (c : Char) : Bool := inRanges whiteSpaceRanges c

/-- Space, tab, line feed or carriage return: the blanks of markup. -/
def isMarkupBlank (c : Char) : Bool :=
  c == ' ' || c == '\t' || c == '\n' || c == '\r'

/-- A blank of markup or a form feed: the separators between identifiers. -/
def isTokenBlank (c : Char) : Bool :=
  isMarkupBlank c || c == '\x0c'

theorem isMarkupBlank_eq : isMarkupBlank = (· ∈ [' ', '\t', '\n', '\r']) := by
  funext c
  rw [Bool.eq_iff_iff]
  simp [isMarkupBlank, or_assoc]

theorem isTokenBlank_eq : isTokenBlank = (· ∈ [' ', '\t', '\n', '\r', '\x0c']) := by
  funext c
  rw [Bool.eq_iff_iff]
  simp [isTokenBlank, isMarkupBlank, or_assoc]

/-- The property covers 25 code points. -/
example : rangesSize whiteSpaceRanges = 25 := by decide

end XPathTree.Text
