import XPathTree.Text.Split

/-!
# Tokens of a text

A token is a maximal run of characters that are no separators (`IsToken`), and `tokens` lists
exactly these. Both fall apart at a separator in the same way: the tokens of a text with a
separator in it are those in front of the separator and those behind it (`tokens_append_cons`,
`isToken_append_cons_iff`). Everything else about tokens follows from that, also that joining
texts with a separator joins what they list.
-/

namespace XPathTree.Text

/-- The token stands in the text, not empty and without a separator, between separators or the
ends of the text. -/
inductive IsToken (separator : Char → Bool) (text token : List Char) : Prop
  | intro {before behind : List Char} (hne : token ≠ [])
      (hfree : ∀ c ∈ token, separator c = false)
      (hbefore : ∀ c ∈ before.getLast?, separator c = true)
      (hbehind : ∀ c ∈ behind.head?, separator c = true)
      (htext : text = before ++ (token ++ behind))

variable {separator : Char → Bool} {c : Char} {text token x y : List Char}

/-! ## At a separator -/

/-- A character in the middle of a text is in one of the two parts the text is cut into. -/
theorem append_cons_eq_append {front rest : List Char} (h : x ++ c :: y = front ++ rest) :
    (∃ skipped, front = x ++ c :: skipped ∧ y = skipped ++ rest) ∨
      ∃ left, x = front ++ left ∧ rest = left ++ c :: y := by
  rcases List.append_eq_append_iff.mp h with ⟨beyond, hfront, hbeyond⟩ | hinside
  · rcases List.cons_eq_append_iff.mp hbeyond with ⟨rfl, hrest⟩ | ⟨skipped, rfl, hrest⟩
    · exact .inr ⟨[], by rw [hfront, List.append_nil, List.append_nil], hrest⟩
    · exact .inl ⟨skipped, hfront, hrest⟩
  · exact .inr hinside

theorem getLast?_append_cons (hc : separator c = true) (x y : List Char) :
    (∀ d ∈ (x ++ c :: y).getLast?, separator d = true) ↔
      ∀ d ∈ y.getLast?, separator d = true := by
  rw [List.getLast?_append, List.getLast?_cons, Option.some_or]
  cases y.getLast? with
  | none => simp [hc]
  | some d => rfl

theorem head?_append_cons (hc : separator c = true) (x y : List Char) :
    (∀ d ∈ (x ++ c :: y).head?, separator d = true) ↔ ∀ d ∈ x.head?, separator d = true := by
  rw [List.head?_append, List.head?_cons]
  cases x.head? with
  | none => simp [hc]
  | some d => rfl

theorem tokens_append_cons (hc : separator c = true) (x y : List Char) :
    tokens separator (x ++ c :: y) = tokens separator x ++ tokens separator y := by
  unfold tokens
  rw [List.splitOnP_append_cons x y hc, List.filter_append]

/-- A maximal run does not reach over a separator: it stands in front of it or behind it. -/
theorem isToken_append_cons_iff (hc : separator c = true) (x y : List Char) :
    IsToken separator (x ++ c :: y) token ↔
      IsToken separator x token ∨ IsToken separator y token := by
  constructor
  · rintro ⟨hne, hfree, hbefore, hbehind, htext⟩
    rcases append_cons_eq_append htext with ⟨skipped, rfl, rfl⟩ | ⟨left, rfl, hrest⟩
    · rw [getLast?_append_cons hc] at hbefore
      exact .inr (.intro hne hfree hbefore hbehind rfl)
    · rcases append_cons_eq_append hrest.symm with ⟨skipped, rfl, _⟩ | ⟨left, rfl, rfl⟩
      · have hnone := hfree c (List.mem_append_right _ List.mem_cons_self)
        exact absurd hc (ne_true_of_eq_false hnone)
      · rw [head?_append_cons hc] at hbehind
        exact .inl (.intro hne hfree hbefore hbehind rfl)
  · rintro (⟨hne, hfree, hbefore, hbehind, rfl⟩ | ⟨hne, hfree, hbefore, hbehind, rfl⟩)
    · refine .intro hne hfree hbefore ((head?_append_cons hc _ y).mpr hbehind) ?_
      simp only [List.append_assoc]
    · refine .intro hne hfree ((getLast?_append_cons hc x _).mpr hbefore) hbehind ?_
      simp only [List.append_assoc, List.cons_append]

/-! ## Without separators -/

theorem mem_tokens_of_free (hfree : ∀ c ∈ text, separator c = false) :
    token ∈ tokens separator text ↔ text ≠ [] ∧ token = text := by
  unfold tokens
  rw [List.splitOnP_eq_singleton hfree, List.mem_filter, List.mem_singleton, and_comm,
    Bool.not_eq_true', List.isEmpty_eq_false_iff]
  exact and_congr_left fun h => by rw [h]

/-- A text without a separator is a token itself, and the only one. -/
theorem isToken_of_free (hfree : ∀ c ∈ text, separator c = false) :
    IsToken separator text token ↔ text ≠ [] ∧ token = text := by
  constructor
  · rintro @⟨before, behind, hne, _, hbefore, hbehind, rfl⟩
    have hnone : ∀ c ∈ before ++ (token ++ behind), ¬ separator c = true :=
      fun c hc => ne_true_of_eq_false (hfree c hc)
    have hfront : before.getLast? = none := Option.eq_none_iff_forall_not_mem.mpr fun c hc =>
      hnone c (List.mem_append_left _ (List.mem_of_getLast? hc)) (hbefore c hc)
    have hback : behind.head? = none := Option.eq_none_iff_forall_not_mem.mpr fun c hc =>
      hnone c (List.mem_append_right _ (List.mem_append_right _ (List.mem_of_head? hc)))
        (hbehind c hc)
    rw [List.getLast?_eq_none_iff.mp hfront, List.head?_eq_none_iff.mp hback]
    simpa using hne
  · rintro ⟨hne, rfl⟩
    exact @IsToken.intro separator token token [] [] hne hfree (by simp) (by simp) (by simp)

/-! ## All tokens -/

/-- The tokens that are listed are the maximal runs. -/
theorem mem_tokens_iff : token ∈ tokens separator text ↔ IsToken separator text token := by
  induction hlength : text.length using Nat.strongRecOn generalizing text with
  | ind length ih =>
      by_cases hfree : ∀ c ∈ text, separator c = false
      · rw [mem_tokens_of_free hfree, isToken_of_free hfree]
      · obtain ⟨c, hmem, hc⟩ : ∃ c ∈ text, separator c = true := by simpa using hfree
        obtain ⟨x, y, rfl⟩ := List.append_of_mem hmem
        rw [List.length_append, List.length_cons] at hlength
        rw [tokens_append_cons hc, isToken_append_cons_iff hc, List.mem_append,
          ih x.length (by omega) rfl, ih y.length (by omega) rfl]

/-- Texts that are joined by a separator list the tokens of all of them. -/
theorem mem_tokens_intercalate_iff (hc : separator c = true) {texts : List (List Char)} :
    token ∈ tokens separator ([c].intercalate texts) ↔
      ∃ text ∈ texts, token ∈ tokens separator text := by
  induction texts with
  | nil => simp [tokens]
  | cons text texts ih =>
      simp only [List.mem_cons, exists_eq_or_imp, ← ih]
      cases texts with
      | nil => simp [tokens]
      | cons next texts =>
          rw [List.intercalate_cons_cons, List.append_assoc, List.singleton_append,
            tokens_append_cons hc, List.mem_append]

end XPathTree.Text
