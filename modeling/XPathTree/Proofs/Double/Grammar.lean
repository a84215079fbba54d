import XPathTree.Double.Numeral
import XPathTree.Proofs.Text.Trim

/-!
# The grammar of numerals

Which texts are numerals, said without a reader: digits with at most one point among or around
them, perhaps a minus sign in front (`Denotes`), and blanks of markup at the two ends (`Written`).
The reader gives the numeral that the text denotes (`read?_eq_some_iff`). The shape of the part
without a sign can be told by three tests that each look at the whole text and not at its order
(`hasShape_iff`): that is enough because a point may stand anywhere as long as there is no second
one.
-/

namespace XPathTree

namespace Numeral

/-- The text is `whole` and `fraction` with a point between them, or `whole` alone; digits stand
on at least one side of the point. -/
inductive Unsigned : (text whole fraction : List Char) → Prop
  | whole {whole : List Char} (hne : whole ≠ []) (hwhole : ∀ c ∈ whole, c.isDigit = true) :
      Unsigned whole whole []
  | point {whole fraction : List Char} (hne : whole ≠ []) (hwhole : ∀ c ∈ whole, c.isDigit = true)
      (hfraction : ∀ c ∈ fraction, c.isDigit = true) :
      Unsigned (whole ++ '.' :: fraction) whole fraction
  | leading {fraction : List Char} (hne : fraction ≠ [])
      (hfraction : ∀ c ∈ fraction, c.isDigit = true) : Unsigned ('.' :: fraction) [] fraction

/-- The numeral with the given digits before and behind the point. -/
def ofDigits (negative : Bool) (whole fraction : List Char) : Numeral :=
  ⟨negative, digitsValue (whole ++ fraction), fraction.length⟩

/-- The text is the numeral's, with or without a minus sign. -/
inductive Denotes : List Char → Numeral → Prop
  | plain {text whole fraction : List Char} (h : Unsigned text whole fraction) :
      Denotes text (ofDigits false whole fraction)
  | minus {text whole fraction : List Char} (h : Unsigned text whole fraction) :
      Denotes ('-' :: text) (ofDigits true whole fraction)

/-- The numeral is all that stands in the text, spaces, tabs, line feeds and carriage returns at
its ends aside. -/
def Written (text : List Char) (numeral : Numeral) : Prop :=
  ∃ front core behind, (∀ c ∈ front ++ behind, c ∈ [' ', '\t', '\n', '\r']) ∧
    text = front ++ (core ++ behind) ∧ Denotes core numeral

/-- A text without one minus sign at its front. -/
def dropMinus : List Char → List Char
  | '-' :: text => text
  | text => text

/-- There is a digit, nothing but digits and points, and no second point. -/
def hasShape (text : List Char) : Bool :=
  text.any Char.isDigit && text.all (fun c => c.isDigit || c == '.') && text.count '.' ≤ 1

/-- The two parts are what stands before and behind a point of the text, or the text has none and
is the first part. -/
def IsCut (text whole fraction : List Char) : Prop :=
  text = whole ∧ fraction = [] ∨ text = whole ++ '.' :: fraction

variable {text whole fraction : List Char} {numeral : Numeral} {negative : Bool} {c : Char}

/-! ## Cutting at the point -/

theorem IsCut.subset (hcut : IsCut text whole fraction) : whole ++ fraction ⊆ text := by
  rcases hcut with ⟨rfl, rfl⟩ | rfl
  · rw [List.append_nil]
    exact List.Subset.refl _
  · exact (List.Sublist.append_left (List.sublist_cons_self _ _) whole).subset

theorem IsCut.eq_point_or_mem (hcut : IsCut text whole fraction) (hc : c ∈ text) :
    c = '.' ∨ c ∈ whole ++ fraction := by
  rcases hcut with ⟨rfl, rfl⟩ | rfl
  · exact .inr (List.mem_append_left _ hc)
  · rw [List.mem_append, List.mem_cons] at hc
    rw [List.mem_append]
    exact hc.elim (fun h => .inr (.inl h)) (Or.imp_right .inr)

/-- With no point in the parts, there is at most one. -/
theorem IsCut.count_le (hcut : IsCut text whole fraction) (h : '.' ∉ whole ++ fraction) :
    text.count '.' ≤ 1 := by
  have hcount := List.count_eq_zero.mpr h
  rw [List.count_append] at hcount
  rcases hcut with ⟨rfl, rfl⟩ | rfl
  · omega
  · rw [List.count_append, List.count_cons_self]
    omega

/-- Behind the only point there is none. -/
theorem IsCut.point_not_mem (hcut : IsCut text whole fraction) (hcount : text.count '.' ≤ 1) :
    '.' ∉ fraction := by
  rcases hcut with ⟨rfl, rfl⟩ | rfl
  · exact List.not_mem_nil
  · rw [List.count_append, List.count_cons_self] at hcount
    exact List.count_eq_zero.mp (by omega)

/-- Every text can be cut at its first point. -/
theorem exists_isCut (text : List Char) :
    ∃ whole fraction, IsCut text whole fraction ∧ '.' ∉ whole := by
  cases hsplit : Text.splitAtFirst '.' text with
  | none => exact ⟨text, [], .inl ⟨rfl, rfl⟩, Text.splitAtFirst_eq_none_iff.mp hsplit⟩
  | some parts =>
      obtain ⟨htext, hwhole⟩ := Text.splitAtFirst_eq_some_iff.mp hsplit
      exact ⟨parts.1, parts.2, .inr htext, hwhole⟩

/-- The reader cuts where there is no earlier point. -/
theorem IsCut.splitAtFirst_eq (hcut : IsCut text whole fraction) (hwhole : '.' ∉ whole) :
    (Text.splitAtFirst '.' text).getD (text, []) = (whole, fraction) := by
  rcases hcut with ⟨rfl, rfl⟩ | htext
  · rw [Text.splitAtFirst_eq_none_iff.mpr hwhole]
    rfl
  · rw [Text.splitAtFirst_eq_some_iff.mpr ⟨htext, hwhole⟩]
    rfl

/-! ## Digits and the point -/

theorem point_not_mem_of_digits (h : ∀ c ∈ text, c.isDigit = true) : '.' ∉ text := by
  intro hmem
  cases h '.' hmem

/-- The three forms at once: the parts hold digits, and nothing else. -/
theorem unsigned_iff :
    Unsigned text whole fraction ↔
      IsCut text whole fraction ∧ whole ++ fraction ≠ [] ∧
        ∀ c ∈ whole ++ fraction, c.isDigit = true := by
  constructor
  · intro h
    cases h with
    | whole hne hwhole =>
        rw [List.append_nil]
        exact ⟨.inl ⟨rfl, rfl⟩, hne, hwhole⟩
    | point hne hwhole hfraction =>
        exact ⟨.inr rfl, List.append_ne_nil_of_left_ne_nil hne _,
          List.forall_mem_append.mpr ⟨hwhole, hfraction⟩⟩
    | leading hne hfraction => exact ⟨.inr rfl, hne, hfraction⟩
  · rintro ⟨hcut, hne, hdigits⟩
    obtain ⟨hwhole, hfraction⟩ := List.forall_mem_append.mp hdigits
    rcases hcut with ⟨rfl, rfl⟩ | rfl
    · rw [List.append_nil] at hne
      exact .whole hne hwhole
    · cases whole with
      | nil => exact .leading hne hfraction
      | cons c whole => exact .point (List.cons_ne_nil c whole) hwhole hfraction

theorem Unsigned.digit_or_point (h : Unsigned text whole fraction) (hc : c ∈ text) :
    c.isDigit = true ∨ c = '.' := by
  obtain ⟨hcut, _, hdigits⟩ := unsigned_iff.mp h
  exact (hcut.eq_point_or_mem hc).elim .inr fun hmem => .inl (hdigits c hmem)

/-- A numeral without a sign does not hold one. -/
theorem Unsigned.minus_not_mem (h : Unsigned text whole fraction) : '-' ∉ text := by
  intro hmem
  rcases h.digit_or_point hmem with hdigit | hpoint
  · cases hdigit
  · cases hpoint

theorem Unsigned.not_blank (h : Unsigned text whole fraction) :
    ∀ c ∈ text, Text.isMarkupBlank c = false := by
  intro c hc
  rcases h.digit_or_point hc with hdigit | rfl
  · refine eq_false_of_ne_true fun hblank => ?_
    simp only [Text.isMarkupBlank, Bool.or_eq_true, beq_iff_eq] at hblank
    rcases hblank with ((rfl | rfl) | rfl) | rfl <;> cases hdigit
  · rfl

theorem Denotes.not_blank (h : Denotes text numeral) :
    ∀ c ∈ text, Text.isMarkupBlank c = false := by
  cases h with
  | plain h => exact h.not_blank
  | minus h => exact List.forall_mem_cons.mpr ⟨rfl, h.not_blank⟩

/-- Digits and at most one point, in whatever order, are one of the three forms. -/
theorem hasShape_iff : hasShape text = true ↔ ∃ whole fraction, Unsigned text whole fraction := by
  simp only [hasShape, Bool.and_eq_true, List.any_eq_true, List.all_eq_true, Bool.or_eq_true,
    beq_iff_eq, decide_eq_true_eq]
  constructor
  · rintro ⟨⟨⟨digit, hdigit, hisDigit⟩, hall⟩, hcount⟩
    obtain ⟨whole, fraction, hcut, hwhole⟩ := exists_isCut text
    -- no point before the first, and the count leaves none for behind it
    have hpoint : '.' ∉ whole ++ fraction := fun hmem =>
      (List.mem_append.mp hmem).elim hwhole (hcut.point_not_mem hcount)
    have hmem : digit ∈ whole ++ fraction := by
      refine (hcut.eq_point_or_mem hdigit).resolve_left ?_
      rintro rfl
      cases hisDigit
    refine ⟨whole, fraction, unsigned_iff.mpr ⟨hcut, List.ne_nil_of_mem hmem, fun c hc => ?_⟩⟩
    refine (hall c (hcut.subset hc)).resolve_right ?_
    rintro rfl
    exact hpoint hc
  · rintro ⟨whole, fraction, h⟩
    obtain ⟨hcut, hne, hdigits⟩ := unsigned_iff.mp h
    obtain ⟨digit, hdigit⟩ := List.exists_mem_of_ne_nil _ hne
    exact ⟨⟨⟨digit, hcut.subset hdigit, hdigits digit hdigit⟩, fun _ hc => h.digit_or_point hc⟩,
      hcut.count_le (point_not_mem_of_digits hdigits)⟩

/-! ## Reading -/

/-- The reader accepts digits, and wants at least one. -/
theorem accepted_iff {digits : List Char} :
    (digits.isEmpty || !digits.all Char.isDigit) = false ↔
      digits ≠ [] ∧ ∀ c ∈ digits, c.isDigit = true := by
  rw [Bool.or_eq_false_iff, List.isEmpty_eq_false_iff, Bool.not_eq_false', List.all_eq_true]

theorem readUnsigned?_eq_some_iff :
    readUnsigned? negative text = some numeral ↔
      ∃ whole fraction, Unsigned text whole fraction ∧
        ofDigits negative whole fraction = numeral := by
  constructor
  · intro h
    obtain ⟨whole, fraction, hcut, hwhole⟩ := exists_isCut text
    simp only [readUnsigned?, hcut.splitAtFirst_eq hwhole] at h
    split at h
    · cases h
    · next haccepted =>
        have hdigits := accepted_iff.mp (eq_false_of_ne_true haccepted)
        exact ⟨whole, fraction, unsigned_iff.mpr ⟨hcut, hdigits⟩, Option.some.inj h⟩
  · rintro ⟨whole, fraction, h, rfl⟩
    obtain ⟨hcut, hdigits⟩ := unsigned_iff.mp h
    have hwhole := point_not_mem_of_digits (List.forall_mem_append.mp hdigits.2).1
    simp only [readUnsigned?, hcut.splitAtFirst_eq hwhole, accepted_iff.mpr hdigits,
      Bool.false_eq_true, if_false]
    rfl

/-- The reader gives the numeral that the text denotes. -/
theorem read?_eq_some_iff : read? text = some numeral ↔ Denotes text numeral := by
  unfold read?
  split
  · rw [readUnsigned?_eq_some_iff]
    constructor
    · rintro ⟨whole, fraction, h, rfl⟩
      exact .minus h
    · intro h
      cases h with
      | plain h => exact absurd List.mem_cons_self h.minus_not_mem
      | minus h => exact ⟨_, _, h, rfl⟩
  · next hsign =>
      rw [readUnsigned?_eq_some_iff]
      constructor
      · rintro ⟨whole, fraction, h, rfl⟩
        exact .plain h
      · intro h
        cases h with
        | plain h => exact ⟨_, _, h, rfl⟩
        | minus h => exact absurd rfl (hsign _)

theorem isSome_readUnsigned?_iff :
    (readUnsigned? negative text).isSome = true ↔ hasShape text = true := by
  rw [hasShape_iff, Option.isSome_iff_exists]
  simp only [readUnsigned?_eq_some_iff]
  constructor
  · rintro ⟨_, whole, fraction, h, _⟩
    exact ⟨whole, fraction, h⟩
  · rintro ⟨whole, fraction, h⟩
    exact ⟨_, whole, fraction, h, rfl⟩

/-- The tests on what is left without a sign tell whether there is a numeral. -/
theorem isSome_read?_iff : (read? text).isSome = true ↔ hasShape (dropMinus text) = true := by
  fun_cases read? text with
  | case1 text => exact isSome_readUnsigned?_iff
  | case2 text hsign =>
      rw [isSome_readUnsigned?_iff]
      unfold dropMinus
      split
      · exact absurd rfl (hsign _)
      · rfl

theorem forall_blank_iff {front behind : List Char} :
    (∀ c ∈ front ++ behind, c ∈ [' ', '\t', '\n', '\r']) ↔
      (∀ c ∈ front, Text.isMarkupBlank c = true) ∧ ∀ c ∈ behind, Text.isMarkupBlank c = true := by
  simp only [Text.isMarkupBlank_eq, decide_eq_true_eq, List.forall_mem_append]

/-- Blanks at the ends aside, the reader gives the numeral that is written in the text. -/
theorem written_iff :
    Written text numeral ↔ read? (Text.trim Text.isMarkupBlank text) = some numeral := by
  rw [read?_eq_some_iff]
  constructor
  · rintro ⟨front, core, behind, hblank, htext, h⟩
    obtain ⟨hfront, hbehind⟩ := forall_blank_iff.mp hblank
    rwa [(Text.trim_eq_iff h.not_blank).mpr ⟨front, behind, hfront, hbehind, htext⟩]
  · intro h
    obtain ⟨front, behind, hfront, hbehind, htext⟩ := (Text.trim_eq_iff h.not_blank).mp rfl
    exact ⟨front, _, behind, forall_blank_iff.mpr ⟨hfront, hbehind⟩, htext, h⟩

theorem toDouble_ne_nan (numeral : Numeral) : numeral.toDouble ≠ .nan := by
  unfold toDouble Double.ofRatio
  split
  · exact Double.noConfusion
  · exact Double.noConfusion

end Numeral

namespace Double

/-- Exactly the texts with a numeral between blanks are read as numbers, and the number is the
numeral's; it is told from the text by the three tests, once the blanks and the sign are off. -/
theorem parse_ne_nan_iff (text : String) :
    (parse text ≠ nan ↔ ∃ numeral, Numeral.Written text.toList numeral) ∧
      (parse text ≠ nan ↔ Numeral.hasShape (Numeral.dropMinus
        (Text.trim (· ∈ [' ', '\t', '\n', '\r']) text.toList)) = true) ∧
      ∀ numeral, Numeral.Written text.toList numeral → parse text = numeral.toDouble := by
  have hread : ∀ numeral, Numeral.Written text.toList numeral → parse text = numeral.toDouble := by
    intro numeral h
    rw [parse, Numeral.written_iff.mp h]
  have hnumber : parse text ≠ nan ↔
      (Numeral.read? (Text.trim Text.isMarkupBlank text.toList)).isSome = true := by
    unfold parse
    split
    · next numeral h =>
        rw [h]
        exact iff_of_true numeral.toDouble_ne_nan rfl
    · next h =>
        rw [h]
        exact iff_of_false (not_not_intro rfl) Bool.false_ne_true
  refine ⟨?_, ?_, hread⟩
  · simp only [hnumber, Option.isSome_iff_exists, Numeral.written_iff]
  · rw [hnumber, Numeral.isSome_read?_iff, Text.isMarkupBlank_eq]

/-- A point with no digit before it, a sign, and blanks at both ends. -/
theorem parse_pointed_half :
    Numeral.Written " -.5\n".toList ⟨true, 5, 1⟩ ∧
      parse " -.5\n" = (Numeral.mk true 5 1).toDouble := by
  have hwritten : Numeral.Written " -.5\n".toList ⟨true, 5, 1⟩ :=
    Numeral.written_iff.mpr (by decide)
  exact ⟨hwritten, (parse_ne_nan_iff " -.5\n").2.2 _ hwritten⟩

end Double

end XPathTree
