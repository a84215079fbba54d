import Mathlib.Data.List.TakeWhile
import XPathTree.Text.Split

/-!
# Blanks at the ends of a text

Trimming takes a gap of blanks off each end and nothing else (`exists_eq_trim`). A text without
blanks is all that is left when it stands between two gaps, and it is left of such texts alone
(`trim_eq_iff`): this is how readers that trim see a grammar with optional blanks.
-/

namespace XPathTree.Text

variable {blank : Char → Bool} {text core front behind : List Char}

theorem dropWhile_eq_self (h : ∀ c ∈ text, blank c = false) : text.dropWhile blank = text := by
  refine List.dropWhile_eq_self_iff.mpr fun hpos => ?_
  rw [h _ (List.getElem_mem hpos)]
  exact Bool.false_ne_true

theorem trim_subset (blank : Char → Bool) (text : List Char) : trim blank text ⊆ text := by
  intro c hc
  have hdropped := (List.dropWhile_sublist blank).subset (List.mem_reverse.mp hc)
  exact (List.dropWhile_sublist blank).subset (List.mem_reverse.mp hdropped)

/-- A text is what is left of it between two gaps. -/
theorem exists_eq_trim (blank : Char → Bool) (text : List Char) :
    ∃ front behind, (∀ c ∈ front, blank c = true) ∧ (∀ c ∈ behind, blank c = true) ∧
      text = front ++ (trim blank text ++ behind) := by
  let dropped := text.dropWhile blank
  refine ⟨text.takeWhile blank, (dropped.reverse.takeWhile blank).reverse, ?_, ?_, ?_⟩
  · exact fun c hc => List.mem_takeWhile_imp hc
  · exact fun c hc => List.mem_takeWhile_imp (List.mem_reverse.mp hc)
  · have hbehind : trim blank text ++ (dropped.reverse.takeWhile blank).reverse = dropped := by
      rw [trim, ← List.reverse_append, List.takeWhile_append_dropWhile, List.reverse_reverse]
    rw [hbehind, List.takeWhile_append_dropWhile]

/-- A text without blanks is what is left of it between two gaps. -/
theorem trim_append (hfront : ∀ c ∈ front, blank c = true) (hbehind : ∀ c ∈ behind, blank c = true)
    (hcore : ∀ c ∈ core, blank c = false) : trim blank (front ++ (core ++ behind)) = core := by
  have hgap : ∀ c ∈ behind.reverse, blank c = true := fun c hc => hbehind c (List.mem_reverse.mp hc)
  have hreverse : ∀ c ∈ core.reverse, blank c = false :=
    fun c hc => hcore c (List.mem_reverse.mp hc)
  rw [trim, List.dropWhile_append_of_pos hfront]
  cases core with
  | nil =>
      have hnone : behind.dropWhile blank = [] := List.dropWhile_eq_nil_iff.mpr hbehind
      rw [List.nil_append, hnone]
      rfl
  | cons c core =>
      have hfirst : blank c = false := hcore c List.mem_cons_self
      rw [List.cons_append, List.dropWhile_cons_of_neg (ne_true_of_eq_false hfirst),
        ← List.cons_append, List.reverse_append, List.dropWhile_append_of_pos hgap,
        dropWhile_eq_self hreverse, List.reverse_reverse]

theorem trim_eq_iff (hcore : ∀ c ∈ core, blank c = false) :
    trim blank text = core ↔
      ∃ front behind, (∀ c ∈ front, blank c = true) ∧ (∀ c ∈ behind, blank c = true) ∧
        text = front ++ (core ++ behind) := by
  constructor
  · rintro rfl
    exact exists_eq_trim blank text
  · rintro ⟨front, behind, hfront, hbehind, rfl⟩
    exact trim_append hfront hbehind hcore

end XPathTree.Text
