import XPathTree.DataBlock
import XPathTree.Proofs.Text.Trim

/-!
# Pairs at the front of a text

`StartsWith` says without a reader what a written pair is: a key and a quoted value with an equals
sign between them, and blanks wherever they may stand. The reader finds a pair exactly when the
text starts with one, and then this pair (`readPair?_eq_some_iff`). So a text `Lists` the pairs
that the reader finds in it and no others: one behind the other, up to the first place where the
text goes on with something else.
-/

namespace XPathTree.DataBlock

/-- The text starts with a pair of key and value, written with blanks around the key and in front
of the value, which is in quotes of one kind; the rest is what is behind the closing quote. -/
inductive StartsWith (text : List Char) (pair : List Char × List Char) (rest : List Char) : Prop
  | intro {front behind gap : List Char} {quote : Char}
      (hfront : ∀ c ∈ front, Text.isWhiteSpace c = true)
      (hbehind : ∀ c ∈ behind, Text.isWhiteSpace c = true)
      (hgap : ∀ c ∈ gap, Text.isWhiteSpace c = true)
      (key_ne_nil : pair.1 ≠ []) (not_blank : ∀ c ∈ pair.1, Text.isWhiteSpace c = false)
      (mark_not_mem : '=' ∉ pair.1) (hquote : isQuote quote = true) (quote_not_mem : quote ∉ pair.2)
      (htext : text = (front ++ (pair.1 ++ behind)) ++
        '=' :: (gap ++ quote :: (pair.2 ++ quote :: rest)))

/-- The text lists the pairs: they stand at its front, one behind the other, and what follows does
not start with a pair. -/
inductive Lists : List Char → List (List Char × List Char) → Prop
  | done {text : List Char} (h : ∀ pair rest, ¬ StartsWith text pair rest) : Lists text []
  | next {text rest : List Char} {pair : List Char × List Char}
      {pairs : List (List Char × List Char)} (start : StartsWith text pair rest)
      (behind : Lists rest pairs) : Lists text (pair :: pairs)

variable {text rest : List Char} {pair : List Char × List Char}
variable {pairs : List (List Char × List Char)}

theorem isQuote_iff {c : Char} : isQuote c = true ↔ c = '"' ∨ c = '\x27' := by
  rw [isQuote, Bool.or_eq_true, beq_iff_eq, beq_iff_eq]

theorem isWhiteSpace_of_isQuote {c : Char} (h : isQuote c = true) :
    Text.isWhiteSpace c = false := by
  rcases isQuote_iff.mp h with rfl | rfl <;> decide

theorem mark_not_mem_of_blank {gap : List Char} (hgap : ∀ c ∈ gap, Text.isWhiteSpace c = true) :
    '=' ∉ gap := by
  intro h
  cases hgap '=' h

/-! ## One pair -/

/-- The reader accepts keys that are not empty and hold no blank. -/
theorem not_refused_iff {key : List Char} :
    (key.isEmpty || key.any Text.isWhiteSpace) = false ↔
      key ≠ [] ∧ ∀ c ∈ key, Text.isWhiteSpace c = false := by
  rw [Bool.or_eq_false_iff, List.isEmpty_eq_false_iff, List.any_eq_false]
  simp only [Bool.not_eq_true]

/-- What the reader finds, the text starts with. -/
theorem startsWith_of_readPair? (h : readPair? text = some (pair, rest)) :
    StartsWith text pair rest := by
  simp only [readPair?, Option.bind_eq_bind, Option.bind_eq_some_iff] at h
  obtain ⟨⟨before, afterMark⟩, hmark, h⟩ := h
  obtain ⟨rfl, hbefore⟩ := Text.splitAtFirst_eq_some_iff.mp hmark
  split at h
  · cases h
  · next quote body hbody =>
      split at h
      · next hquote =>
          obtain ⟨⟨value, _⟩, hvalue, hread⟩ := Option.bind_eq_some_iff.mp h
          obtain ⟨rfl, hfree⟩ := Text.splitAtFirst_eq_some_iff.mp hvalue
          split at hread
          · cases hread
          · next haccepted =>
              cases hread
              obtain ⟨hne, hblank⟩ := not_refused_iff.mp (eq_false_of_ne_true haccepted)
              obtain ⟨front, behind, hfront, hbehind, heq⟩ :=
                Text.exists_eq_trim Text.isWhiteSpace before
              have hgap : ∀ c ∈ afterMark.takeWhile Text.isWhiteSpace, Text.isWhiteSpace c = true :=
                fun c hc => List.mem_takeWhile_imp hc
              have hafter := List.takeWhile_append_dropWhile (p := Text.isWhiteSpace)
                (l := afterMark)
              rw [hbody] at hafter
              refine .intro hfront hbehind hgap hne hblank
                (fun hmem => hbefore (Text.trim_subset _ _ hmem)) hquote hfree ?_
              rw [← heq, hafter]
      · cases h

/-- What the text starts with, the reader finds. -/
theorem StartsWith.readPair?_eq (start : StartsWith text pair rest) :
    readPair? text = some (pair, rest) := by
  obtain ⟨key, value⟩ := pair
  obtain @⟨front, behind, gap, quote, hfront, hbehind, hgap, hne, hblank, hmark, hquote, hfree,
    htext⟩ := start
  have hbefore : '=' ∉ front ++ (key ++ behind) := by
    simp [mark_not_mem_of_blank hfront, hmark, mark_not_mem_of_blank hbehind]
  have hkey : Text.splitAtFirst '=' text =
      some (front ++ (key ++ behind), gap ++ quote :: (value ++ quote :: rest)) :=
    Text.splitAtFirst_eq_some_iff.mpr ⟨htext, hbefore⟩
  have hbody : (gap ++ quote :: (value ++ quote :: rest)).dropWhile Text.isWhiteSpace =
      quote :: (value ++ quote :: rest) := by
    rw [List.dropWhile_append_of_pos hgap,
      List.dropWhile_cons_of_neg (ne_true_of_eq_false (isWhiteSpace_of_isQuote hquote))]
  have hvalue : Text.splitAtFirst quote (value ++ quote :: rest) = some (value, rest) :=
    Text.splitAtFirst_eq_some_iff.mpr ⟨rfl, hfree⟩
  simp only [readPair?, hkey, Option.bind_eq_bind, Option.bind_some, hbody, hquote, if_true, hvalue,
    Text.trim_append hfront hbehind hblank, not_refused_iff.mpr ⟨hne, hblank⟩, Bool.false_eq_true,
    if_false]

theorem readPair?_eq_some_iff : readPair? text = some (pair, rest) ↔ StartsWith text pair rest :=
  ⟨startsWith_of_readPair?, StartsWith.readPair?_eq⟩

theorem readPair?_eq_none_iff :
    readPair? text = none ↔ ∀ pair rest, ¬ StartsWith text pair rest := by
  simp only [Option.eq_none_iff_forall_ne_some, Prod.forall, ne_eq, readPair?_eq_some_iff]

/-! ## All pairs -/

theorem readPairs_of_none (h : readPair? text = none) : readPairs text = [] := by
  rw [readPairs]
  split
  · rfl
  · next hsome => cases h.symm.trans hsome

theorem readPairs_of_some (h : readPair? text = some (pair, rest)) :
    readPairs text = pair :: readPairs rest := by
  rw [readPairs]
  split
  · next hnone => cases h.symm.trans hnone
  · next hsome =>
      cases h.symm.trans hsome
      rfl

theorem lists_readPairs (text : List Char) : Lists text (readPairs text) := by
  fun_induction readPairs text with
  | case1 text h => exact .done (readPair?_eq_none_iff.mp h)
  | case2 text pair rest h ih => exact .next (startsWith_of_readPair? h) ih

/-- A text lists the pairs that the reader finds, and no others. -/
theorem lists_iff : Lists text pairs ↔ readPairs text = pairs := by
  constructor
  · intro h
    induction h with
    | done h => exact readPairs_of_none (readPair?_eq_none_iff.mpr h)
    | next start _ ih => rw [readPairs_of_some start.readPair?_eq, ih]
  · rintro rfl
    exact lists_readPairs text

end XPathTree.DataBlock
