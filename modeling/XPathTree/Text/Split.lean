import XPathTree.Text.Blank

/-!
# Splitting text

Texts are cut at a first separator, trimmed at their ends, or broken into the
maximal runs between separators. `splitAtFirst_eq_some_iff` fixes the first cut
completely: it is the one whose left part does not hold the separator.
-/

namespace XPathTree.Text

/-- Cuts a text at the first `mark`; the mark itself belongs to neither part. -/
def splitAtFirst (mark : Char) : List Char → Option (List Char × List Char)
  | [] => none
  | c :: rest =>
    if c = mark then some ([], rest)
    else (splitAtFirst mark rest).map fun parts => (c :: parts.1, parts.2)

theorem splitAtFirst_eq_some_iff {mark : Char} {text before after : List Char} :
    splitAtFirst mark text = some (before, after) ↔
      text = before ++ mark :: after ∧ mark ∉ before := by
  induction text generalizing before with
  | nil => simp [splitAtFirst]
  | cons c rest ih =>
    by_cases hc : c = mark
    · subst hc
      cases before with
      | nil => simp [splitAtFirst, eq_comm]
      | cons b before =>
        simp only [splitAtFirst, if_true, Option.some.injEq, Prod.mk.injEq, List.cons_append,
          List.cons.injEq, List.mem_cons, not_or]
        constructor
        · rintro ⟨hnil, -⟩
          cases hnil
        · rintro ⟨⟨rfl, -⟩, hne, -⟩
          exact absurd rfl hne
    · cases before with
      | nil => simp [splitAtFirst, hc]
      | cons b before =>
        simp only [splitAtFirst, hc, if_false, Option.map_eq_some_iff, Prod.mk.injEq,
          List.cons.injEq, List.cons_append, List.mem_cons, not_or]
        constructor
        · rintro ⟨⟨before', after'⟩, hsplit, ⟨rfl, rfl⟩, rfl⟩
          obtain ⟨rfl, hmem⟩ := ih.mp hsplit
          exact ⟨⟨rfl, rfl⟩, fun h => hc h.symm, hmem⟩
        · rintro ⟨⟨rfl, hrest⟩, -, hmem⟩
          exact ⟨(before, after), ih.mpr ⟨hrest, hmem⟩, ⟨rfl, rfl⟩, rfl⟩

theorem splitAtFirst_eq_none_iff {mark : Char} {text : List Char} :
    splitAtFirst mark text = none ↔ mark ∉ text := by
  induction text with
  | nil => simp [splitAtFirst]
  | cons c rest ih =>
    by_cases hc : c = mark
    · simp [splitAtFirst, hc]
    · simp [splitAtFirst, hc, ih, Ne.symm hc]

/-- What follows the mark is shorter than the text. -/
theorem length_lt_of_splitAtFirst {mark : Char} {text before after : List Char}
    (h : splitAtFirst mark text = some (before, after)) : after.length < text.length := by
  obtain ⟨rfl, -⟩ := splitAtFirst_eq_some_iff.mp h
  simp only [List.length_append, List.length_cons]
  omega

/-- A text without the characters `blank` accepts at its two ends. -/
def trim (blank : Char → Bool) (text : List Char) : List Char :=
  ((text.dropWhile blank).reverse.dropWhile blank).reverse

/-- The maximal runs of characters that are no separators, in order. -/
def tokens (separator : Char → Bool) (text : List Char) : List (List Char) :=
  (text.splitOnP separator).filter fun run => !run.isEmpty

/-- The runs between blanks of markup, joined by single spaces. -/
def normalizeSpace (text : List Char) : List Char :=
  [' '].intercalate (tokens isMarkupBlank text)

end XPathTree.Text
