import Mathlib.Data.List.Infix
import XPathTree.Text.Search

/-!
# Leftmost occurrences

A search finds a pattern wherever it occurs (`occurs_iff`), and what it cuts off in front of it is
no longer than what stands in front of any other occurrence (`length_before_le`). Overlapping
occurrences and the empty pattern, which occurs everywhere, are no exceptions. A text starts with
a pattern when nothing stands in front of the leftmost occurrence (`isPrefixOf_iff`).
-/

namespace XPathTree.Text

variable {pattern text left right x y : List Char}

/-! ## The cut -/

/-- A cut does not skip an occurrence. -/
theorem length_le_of_splitAround (h : splitAround pattern text = some (left, right))
    (hother : text = x ++ (pattern ++ y)) : left.length ≤ x.length := by
  induction text generalizing left right x with
  | nil =>
      rw [splitAround] at h
      split at h
      · obtain ⟨rfl, _⟩ := Prod.mk.inj (Option.some.inj h)
        exact Nat.zero_le _
      · cases h
  | cons c text ih =>
      rw [splitAround] at h
      split at h
      · obtain ⟨rfl, _⟩ := Prod.mk.inj (Option.some.inj h)
        exact Nat.zero_le _
      · next hnone =>
          obtain ⟨parts, hsplit, heq⟩ := Option.map_eq_some_iff.mp h
          obtain ⟨rfl, rfl⟩ := Prod.mk.inj heq
          cases x with
          | nil =>
              rw [List.nil_append] at hother
              rw [List.isPrefixOf?_eq_some_iff_append_eq.mpr hother.symm] at hnone
              cases hnone
          | cons d x => exact Nat.succ_le_succ (ih hsplit (List.cons.inj hother).2)

/-- A pattern that occurs is found. -/
theorem isSome_splitAround (h : text = x ++ (pattern ++ y)) :
    (splitAround pattern text).isSome = true := by
  induction text generalizing x with
  | nil =>
      have hempty : pattern = [] :=
        (List.append_eq_nil_iff.mp (List.append_eq_nil_iff.mp h.symm).2).1
      rw [splitAround, hempty]
      rfl
  | cons c text ih =>
      rw [splitAround]
      split
      · rfl
      · next hnone =>
          cases x with
          | nil =>
              rw [List.nil_append] at h
              rw [List.isPrefixOf?_eq_some_iff_append_eq.mpr h.symm] at hnone
              cases hnone
          | cons d x =>
              rw [Option.isSome_map]
              exact ih (List.cons.inj h).2

/-! ## Searches -/

theorem occurs_iff : occurs pattern text = true ↔ ∃ x y, text = x ++ (pattern ++ y) := by
  constructor
  · intro h
    obtain ⟨⟨left, right⟩, hsplit⟩ := Option.isSome_iff_exists.mp h
    refine ⟨left, right, ?_⟩
    rw [eq_append_of_splitAround hsplit, List.append_assoc]
  · rintro ⟨x, y, h⟩
    exact isSome_splitAround h

theorem splitAround_of_occurs (h : occurs pattern text = true) :
    splitAround pattern text = some (before pattern text, after pattern text) := by
  obtain ⟨parts, hsplit⟩ := Option.isSome_iff_exists.mp h
  rw [before, after, hsplit]
  rfl

theorem splitAround_of_not_occurs (h : occurs pattern text = false) :
    splitAround pattern text = none :=
  Option.isNone_iff_eq_none.mp (Option.isSome_eq_false_iff.mp h)

/-- The parts around an occurring pattern make up the text with it. -/
theorem before_append_after (h : occurs pattern text = true) :
    before pattern text ++ pattern ++ after pattern text = text :=
  (eq_append_of_splitAround (splitAround_of_occurs h)).symm

/-- No occurrence has less in front of it. -/
theorem length_before_le (h : text = x ++ (pattern ++ y)) :
    (before pattern text).length ≤ x.length :=
  length_le_of_splitAround (splitAround_of_occurs (occurs_iff.mpr ⟨x, y, h⟩)) h

theorem before_of_not_occurs (h : occurs pattern text = false) : before pattern text = [] := by
  rw [before, splitAround_of_not_occurs h]
  rfl

theorem after_of_not_occurs (h : occurs pattern text = false) : after pattern text = [] := by
  rw [after, splitAround_of_not_occurs h]
  rfl

/-- To start with a pattern is to have nothing in front of its leftmost occurrence. -/
theorem isPrefixOf_iff :
    pattern.isPrefixOf text = true ↔ occurs pattern text = true ∧ before pattern text = [] := by
  rw [List.isPrefixOf_iff_prefix]
  constructor
  · rintro ⟨y, rfl⟩
    have hat : pattern ++ y = [] ++ (pattern ++ y) := rfl
    exact ⟨occurs_iff.mpr ⟨[], y, hat⟩,
      List.eq_nil_of_length_eq_zero (Nat.le_zero.mp (length_before_le hat))⟩
  · rintro ⟨hoccurs, hbefore⟩
    have htext := before_append_after hoccurs
    rw [hbefore, List.nil_append] at htext
    exact ⟨_, htext⟩

end XPathTree.Text
