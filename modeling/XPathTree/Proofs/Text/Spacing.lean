import Mathlib.Data.List.Chain
import XPathTree.Proofs.Text.Token

/-!
# Spacing of a text

What the tokens of a text are, with their order, is said without splitting the text
(`HasTokens`), and `tokens` lists exactly these (`hasTokens_iff`). Tokens that are joined with a
separator are the tokens of the joined text (`hasTokens_intercalate`). So normalising the space in
a text changes nothing but the gaps: the tokens are the same whether blanks or only spaces
separate them (`hasTokens_normalizeSpace`), and one space is left between two of them and nowhere
else (`spaced_normalizeSpace`). Everything else follows: the result is its own result, and it is
told by the tokens alone.
-/

namespace XPathTree.Text

variable {separator : Char → Bool} {c : Char} {text gap token : List Char}
variable {words : List (List Char)}

/-- The tokens of the text in order: each is free of separators and stands between separators or
the ends of the text, and all else are separators. -/
inductive HasTokens (separator : Char → Bool) : List Char → List (List Char) → Prop
  | none {gap : List Char} (hgap : ∀ c ∈ gap, separator c = true) : HasTokens separator gap []
  | token {gap token rest : List Char} {words : List (List Char)}
      (hgap : ∀ c ∈ gap, separator c = true) (hne : token ≠ [])
      (hfree : ∀ c ∈ token, separator c = false)
      (hedge : ∀ c ∈ rest.head?, separator c = true) (hrest : HasTokens separator rest words) :
      HasTokens separator (gap ++ (token ++ rest)) (token :: words)

/-! ## The tokens listed -/

theorem tokens_nil (separator : Char → Bool) : tokens separator [] = [] := rfl

theorem tokens_cons (hc : separator c = true) (text : List Char) :
    tokens separator (c :: text) = tokens separator text :=
  tokens_append_cons hc [] text

theorem tokens_gap_append (hgap : ∀ c ∈ gap, separator c = true) (text : List Char) :
    tokens separator (gap ++ text) = tokens separator text := by
  induction gap with
  | nil => rfl
  | cons c gap ih =>
      obtain ⟨hc, hgap⟩ := List.forall_mem_cons.mp hgap
      rw [List.cons_append, tokens_cons hc, ih hgap]

theorem tokens_of_free (hne : token ≠ []) (hfree : ∀ c ∈ token, separator c = false) :
    tokens separator token = [token] := by
  unfold tokens
  rw [List.splitOnP_eq_singleton hfree]
  simp [hne]

theorem HasTokens.tokens_eq (h : HasTokens separator text words) :
    tokens separator text = words := by
  induction h with
  | @none gap hgap =>
      have hnone := tokens_gap_append hgap []
      rwa [List.append_nil, tokens_nil] at hnone
  | @token gap token rest words hgap hne hfree hedge _ ih =>
      rw [tokens_gap_append hgap]
      cases rest with
      | nil => rw [List.append_nil, tokens_of_free hne hfree, ← ih, tokens_nil]
      | cons c rest =>
          have hc : separator c = true := hedge c rfl
          rw [tokens_append_cons hc, tokens_of_free hne hfree, ← ih, tokens_cons hc]
          rfl

/-- A separator in front belongs to the first gap. -/
theorem HasTokens.cons_separator (hc : separator c = true) (h : HasTokens separator text words) :
    HasTokens separator (c :: text) words := by
  cases h with
  | none hgap => exact .none (List.forall_mem_cons.mpr ⟨hc, hgap⟩)
  | token hgap hne hfree hedge hrest =>
      exact .token (List.forall_mem_cons.mpr ⟨hc, hgap⟩) hne hfree hedge hrest

/-- Any other character in front starts a token or makes the first one longer. -/
theorem HasTokens.cons_free (hc : separator c = false) (h : HasTokens separator text words) :
    ∃ words', HasTokens separator (c :: text) words' := by
  have hfree : ∀ d ∈ [c], separator d = false := List.forall_mem_singleton.mpr hc
  cases h with
  | none hgap =>
      exact ⟨_, .token (List.forall_mem_nil _) (List.cons_ne_nil c []) hfree
        (fun d hd => hgap d (List.mem_of_mem_head? hd)) (.none hgap)⟩
  | @token gap token rest words hgap hne hfree' hedge hrest =>
      cases gap with
      | nil =>
          exact ⟨_, .token (List.forall_mem_nil _) (List.cons_ne_nil c token)
            (List.forall_mem_cons.mpr ⟨hc, hfree'⟩) hedge hrest⟩
      | cons d gap =>
          have hd : separator d = true := hgap d List.mem_cons_self
          exact ⟨_, .token (List.forall_mem_nil _) (List.cons_ne_nil c []) hfree
            (fun e he => Option.some.inj he ▸ hd) (.token hgap hne hfree' hedge hrest)⟩

theorem exists_hasTokens (separator : Char → Bool) (text : List Char) :
    ∃ words, HasTokens separator text words := by
  induction text with
  | nil => exact ⟨[], .none (List.forall_mem_nil _)⟩
  | cons c text ih =>
      obtain ⟨words, h⟩ := ih
      cases hc : separator c with
      | true => exact ⟨words, h.cons_separator hc⟩
      | false => exact h.cons_free hc

/-- The tokens that are listed are the tokens in order, and there are no others. -/
theorem hasTokens_iff : HasTokens separator text words ↔ tokens separator text = words := by
  constructor
  · exact HasTokens.tokens_eq
  · rintro rfl
    obtain ⟨words, h⟩ := exists_hasTokens separator text
    rwa [h.tokens_eq]

/-! ## Joined tokens -/

/-- The words can be tokens: none is empty, and none holds a separator. -/
def AreTokens (separator : Char → Bool) (words : List (List Char)) : Prop :=
  ∀ word ∈ words, word ≠ [] ∧ ∀ c ∈ word, separator c = false

theorem HasTokens.areTokens (h : HasTokens separator text words) : AreTokens separator words := by
  induction h with
  | none => exact List.forall_mem_nil _
  | token _ hne hfree _ _ ih => exact List.forall_mem_cons.mpr ⟨⟨hne, hfree⟩, ih⟩

theorem hasTokens_intercalate (hc : separator c = true) (h : AreTokens separator words) :
    HasTokens separator ([c].intercalate words) words := by
  induction words with
  | nil => exact .none (List.forall_mem_nil _)
  | cons word words ih =>
      obtain ⟨⟨hne, hfree⟩, hwords⟩ := List.forall_mem_cons.mp h
      cases words with
      | nil =>
          have hrest : HasTokens separator [] [] := .none (List.forall_mem_nil _)
          have hedge : ∀ d ∈ ([] : List Char).head?, separator d = true := by simp
          have hlast := HasTokens.token (List.forall_mem_nil _) hne hfree hedge hrest
          rw [List.append_nil, List.nil_append] at hlast
          rwa [List.intercalate_singleton]
      | cons next words =>
          rw [List.intercalate_cons_cons, List.append_assoc]
          exact .token (List.forall_mem_nil _) hne hfree (fun d hd => Option.some.inj hd ▸ hc)
            ((ih hwords).cons_separator hc)

/-! ## Normal spacing -/

/-- One space at a time, none at the ends, and no other blank of markup. -/
structure Spaced (text : List Char) : Prop where
  plain : ∀ c ∈ text, c ≠ '\t' ∧ c ≠ '\n' ∧ c ≠ '\r'
  single : text.IsChain fun c d => ¬ (c = ' ' ∧ d = ' ')
  front : text.head? ≠ some ' '
  behind : text.getLast? ≠ some ' '

/-- Characters of a token are neither spaces nor other blanks of markup. -/
theorem ne_of_not_blank (hc : isMarkupBlank c = false) :
    c ≠ ' ' ∧ c ≠ '\t' ∧ c ≠ '\n' ∧ c ≠ '\r' := by
  simpa [isMarkupBlank, and_assoc] using hc

theorem spaced_token (hfree : ∀ c ∈ token, isMarkupBlank c = false) : Spaced token where
  plain c hc := (ne_of_not_blank (hfree c hc)).2
  single := by
    refine List.isChain_iff_forall_rel_of_append_cons_cons.mpr ?_
    rintro c d front behind rfl ⟨hc, _⟩
    exact (ne_of_not_blank (hfree c (List.mem_append_right _ List.mem_cons_self))).1 hc
  front h := (ne_of_not_blank (hfree _ (List.mem_of_mem_head? h))).1 rfl
  behind h := (ne_of_not_blank (hfree _ (List.mem_of_getLast? h))).1 rfl

/-- A token and a space may stand in front. -/
theorem Spaced.append {rest : List Char} (hne : token ≠ [])
    (hfree : ∀ c ∈ token, isMarkupBlank c = false) (hrest : Spaced rest) (hmore : rest ≠ []) :
    Spaced (token ++ ' ' :: rest) where
  plain := by
    refine List.forall_mem_append.mpr ⟨(spaced_token hfree).plain, ?_⟩
    exact List.forall_mem_cons.mpr ⟨by decide, hrest.plain⟩
  single := by
    refine List.isChain_append.mpr ⟨(spaced_token hfree).single, List.isChain_cons.mpr ⟨?_, ?_⟩, ?_⟩
    · rintro d hd ⟨_, rfl⟩
      exact hrest.front hd
    · exact hrest.single
    · rintro c hc d _ ⟨rfl, _⟩
      exact (spaced_token hfree).behind hc
  front := by
    rw [List.head?_append_of_ne_nil _ hne]
    exact (spaced_token hfree).front
  behind := by
    rw [List.getLast?_append_of_ne_nil _ (List.cons_ne_nil _ _), List.getLast?_cons_of_ne_nil hmore]
    exact hrest.behind

theorem intercalate_ne_nil {word : List Char} (hne : word ≠ []) (words : List (List Char)) :
    [' '].intercalate (word :: words) ≠ [] := by
  cases words with
  | nil => rwa [List.intercalate_singleton]
  | cons next words =>
      rw [List.intercalate_cons_cons, List.append_assoc]
      exact List.append_ne_nil_of_left_ne_nil hne _

theorem spaced_intercalate (h : AreTokens isMarkupBlank words) :
    Spaced ([' '].intercalate words) := by
  induction words with
  | nil => exact spaced_token (List.forall_mem_nil _)
  | cons word words ih =>
      obtain ⟨⟨hne, hfree⟩, hwords⟩ := List.forall_mem_cons.mp h
      cases words with
      | nil => rw [List.intercalate_singleton]; exact spaced_token hfree
      | cons next words =>
          rw [List.intercalate_cons_cons, List.append_assoc]
          exact .append hne hfree (ih hwords)
            (intercalate_ne_nil (hwords next List.mem_cons_self).1 words)

/-! ## Normalised space -/

theorem areTokens_tokens (separator : Char → Bool) (text : List Char) :
    AreTokens separator (tokens separator text) :=
  (hasTokens_iff.mpr rfl).areTokens

theorem spaced_normalizeSpace (text : List Char) : Spaced (normalizeSpace text) :=
  spaced_intercalate (areTokens_tokens isMarkupBlank text)

/-- The tokens stay, and only spaces are left between them. -/
theorem hasTokens_normalizeSpace (text : List Char) :
    HasTokens (· == ' ') (normalizeSpace text) (tokens isMarkupBlank text) := by
  refine hasTokens_intercalate rfl fun word hword => ?_
  obtain ⟨hne, hfree⟩ := areTokens_tokens isMarkupBlank text word hword
  exact ⟨hne, fun c hc => beq_eq_false_iff_ne.mpr (ne_of_not_blank (hfree c hc)).1⟩

theorem tokens_normalizeSpace (text : List Char) :
    tokens isMarkupBlank (normalizeSpace text) = tokens isMarkupBlank text :=
  hasTokens_iff.mp (hasTokens_intercalate rfl (areTokens_tokens isMarkupBlank text))

/-- Texts are normalised to the same text when their tokens are the same. -/
theorem normalizeSpace_eq_iff {x y : List Char} :
    normalizeSpace x = normalizeSpace y ↔ tokens isMarkupBlank x = tokens isMarkupBlank y := by
  constructor
  · intro h
    rw [← tokens_normalizeSpace x, h, tokens_normalizeSpace]
  · intro h
    rw [normalizeSpace, h, normalizeSpace]

end XPathTree.Text
