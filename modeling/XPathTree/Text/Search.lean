/-!
# Searching and substituting in text

A search cuts the text around the leftmost occurrence of a pattern; the other
searches are read off that cut. `translate` substitutes character by character.
-/

namespace XPathTree.Text

/-- Cuts a text around the leftmost occurrence of `pattern`: what stands before
it and what stands after it. -/
def splitAround (pattern : List Char) : List Char → Option (List Char × List Char)
  | [] => if pattern.isEmpty then some ([], []) else none
  | c :: rest =>
    match pattern.isPrefixOf? (c :: rest) with
    | some after => some ([], after)
    | none => (splitAround pattern rest).map fun parts => (c :: parts.1, parts.2)

/-- Whether `pattern` occurs in the text. -/
def occurs (pattern text : List Char) : Bool :=
  (splitAround pattern text).isSome

/-- What stands before the leftmost occurrence of `pattern`; empty without one. -/
def before (pattern text : List Char) : List Char :=
  ((splitAround pattern text).map (·.1)).getD []

/-- What stands after the leftmost occurrence of `pattern`; empty without one. -/
def after (pattern text : List Char) : List Char :=
  ((splitAround pattern text).map (·.2)).getD []

private theorem eq_append_of_isPrefixOf? {pattern text rest : List Char}
    (h : pattern.isPrefixOf? text = some rest) : text = pattern ++ rest := by
  induction pattern generalizing text with
  | nil => exact Option.some.inj h
  | cons p pattern ih =>
    cases text with
    | nil =>
      have hnone : none = some rest := h
      cases hnone
    | cons c text =>
      have hcons : (if p == c then pattern.isPrefixOf? text else none) = some rest := h
      split at hcons
      · next hpc => rw [beq_iff_eq.mp hpc, ih hcons, List.cons_append]
      · cases hcons

/-- The two parts and the pattern between them make up the text. -/
theorem eq_append_of_splitAround {pattern text left right : List Char}
    (h : splitAround pattern text = some (left, right)) :
    text = left ++ pattern ++ right := by
  induction text generalizing left with
  | nil =>
    simp only [splitAround] at h
    split at h <;> simp_all
  | cons c rest ih =>
    rw [splitAround] at h
    split at h
    · next tail hpat =>
      obtain ⟨rfl, rfl⟩ : [] = left ∧ tail = right := by simpa using h
      simpa using eq_append_of_isPrefixOf? hpat
    · obtain ⟨⟨left', right'⟩, hsplit, heq⟩ := Option.map_eq_some_iff.mp h
      obtain ⟨rfl, rfl⟩ : c :: left' = left ∧ right' = right := by simpa using heq
      simpa using ih hsplit

/-- Each character found in `source` becomes the character of `target` at the
position of its first occurrence there, and is dropped if `target` is too short. -/
def translate (source target text : List Char) : List Char :=
  text.filterMap fun c =>
    match source.idxOf? c with
    | some position => target[position]?
    | none => some c

end XPathTree.Text
