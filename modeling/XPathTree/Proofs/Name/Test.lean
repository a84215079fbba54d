import XPathTree.NodeTest
import XPathTree.Proofs.Name.Lexical

/-!
# Name tests as they are written

A name test is written as a name is, and parted at its first colon as well, but not in the same
way: a text with nothing on one side of this colon (`LacksPart`) is read as a plain name, and yet
as a test for a prefix and a local part of which one is empty. No name that was read has a prefix
together with an empty part, so that such a test passes no name, not even the one that is read from
this very text. All other tests for a name pass the name that is read from the same text and no
other, where no prefix is bound and none has to be (`settle_ofLexical`).
-/

namespace XPathTree

/-! ## Texts -/

namespace Text

variable {text before after before' after' : String}

/-- There is nothing in front of the first colon of the text, or nothing behind it. -/
inductive LacksPart : String → Prop
  | inFront (after : String) : LacksPart (":" ++ after)
  | behind {before : String} (h : ':' ∉ before.toList) : LacksPart (before ++ ":")

/-- As a test, the text asks for no particular name. -/
inductive IsWildcard : String → Prop
  | any : IsWildcard "*"
  | anyIn {before : String} (h : ':' ∉ before.toList) : IsWildcard (before ++ ":*")

/-- The parts around the first colon are determined by the text. -/
theorem parts_inj (h : ':' ∉ before.toList) (h' : ':' ∉ before'.toList)
    (heq : before ++ ":" ++ after = before' ++ ":" ++ after') :
    before = before' ∧ after = after' := by
  have hcut : some (before.toList, after.toList) = some (before'.toList, after'.toList) := by
    rw [← splitAtFirst_parts h, heq, splitAtFirst_parts h']
  obtain ⟨hbefore, hafter⟩ := Prod.mk.inj (Option.some.inj hcut)
  exact ⟨String.toList_injective hbefore, String.toList_injective hafter⟩

theorem mem_of_lacksPart (h : LacksPart text) : ':' ∈ text.toList := by
  cases h with
  | inFront after => simp
  | behind => simp

/-- Parted at its first colon, a text lacks what is empty. -/
theorem lacksPart_parts_iff (h : ':' ∉ before.toList) :
    LacksPart (before ++ ":" ++ after) ↔ before = "" ∨ after = "" := by
  constructor
  · intro hlacks
    generalize htext : before ++ ":" ++ after = text at hlacks
    cases hlacks with
    | inFront after' =>
        have heq : before ++ ":" ++ after = "" ++ ":" ++ after' := by simpa using htext
        exact .inl (parts_inj h (by simp) heq).1
    | @behind before' h' =>
        have heq : before ++ ":" ++ after = before' ++ ":" ++ "" := by simpa using htext
        exact .inr (parts_inj h h' heq).2
  · rintro (rfl | rfl)
    · simpa using LacksPart.inFront after
    · simpa using LacksPart.behind h

theorem isWildcard_parts_iff (h : ':' ∉ before.toList) :
    IsWildcard (before ++ ":" ++ after) ↔ after = "*" := by
  constructor
  · intro hwild
    generalize htext : before ++ ":" ++ after = text at hwild
    cases hwild with
    | any =>
        -- an asterisk alone has no colon to be parted at
        have hcolon : ':' ∈ (before ++ ":" ++ after).toList := by simp
        rw [htext] at hcolon
        simp at hcolon
    | @anyIn before' h' =>
        have heq : before ++ ":" ++ after = before' ++ ":" ++ "*" := by
          simpa [String.append_assoc] using htext
        exact (parts_inj h h' heq).2
  · rintro rfl
    simpa [String.append_assoc] using IsWildcard.anyIn h

theorem isWildcard_iff_of_absent (h : ':' ∉ text.toList) : IsWildcard text ↔ text = "*" := by
  constructor
  · intro hwild
    cases hwild with
    | any => rfl
    | anyIn => simp at h
  · rintro rfl
    exact .any

instance (text : String) : Decidable (LacksPart text) :=
  decidable_of_iff ((splitAtFirst ':' text.toList).any
      fun cut => cut.1.isEmpty || cut.2.isEmpty) <| by
    cases firstColon text with
    | absent h => simpa [splitAtFirst_eq_none_iff.mpr h] using mt mem_of_lacksPart h
    | parts h =>
        rw [splitAtFirst_parts h, lacksPart_parts_iff h]
        simp

instance (text : String) : Decidable (IsWildcard text) :=
  decidable_of_iff ((splitAtFirst ':' text.toList).elim (text == "*")
      fun cut => String.ofList cut.2 == "*") <| by
    cases firstColon text with
    | absent h => simp [splitAtFirst_eq_none_iff.mpr h, isWildcard_iff_of_absent h]
    | parts h =>
        rw [splitAtFirst_parts h, isWildcard_parts_iff h]
        simp

end Text

open Text

variable {before after text other : String}

/-- A prefix and a local part are those of the name that is read from the same text, if neither of
them is empty, and otherwise of no name that is read. -/
theorem QName.parts_ofLexical_iff (h : ':' ∉ before.toList) :
    (ofLexical other).localPart = after ∧ (ofLexical other).nsPrefix = some before ↔
      other = before ++ ":" ++ after ∧ ¬ LacksPart (before ++ ":" ++ after) := by
  rw [lacksPart_parts_iff h, not_or]
  constructor
  · rintro ⟨rfl, hwritten⟩
    refine ⟨(lexical_ofLexical other).symm.trans ?_, ne_of_nsPrefix_ofLexical hwritten⟩
    rw [lexical, hwritten]
  · rintro ⟨rfl, hbefore, hafter⟩
    rw [ofLexical_parts h hbefore hafter]
    exact ⟨rfl, rfl⟩

/-! ## Reading -/

namespace NodeTest

theorem ofLexical_of_absent (h : ':' ∉ text.toList) (hstar : text ≠ "*") :
    ofLexical text = .name none text := by
  unfold ofLexical
  rw [splitAtFirst_eq_none_iff.mpr h]
  exact if_neg hstar

/-- Both parts are taken as they are, also if there is nothing in them. -/
theorem ofLexical_parts (h : ':' ∉ before.toList) (hstar : after ≠ "*") :
    ofLexical (before ++ ":" ++ after) = .name (some before) after := by
  unfold ofLexical
  rw [splitAtFirst_parts h]
  split
  · next hcut =>
      have hafter : after.toList = "*".toList := (Prod.mk.inj (Option.some.inj hcut)).2
      exact absurd (String.toList_injective hafter) hstar
  · next hcut =>
      obtain ⟨rfl, rfl⟩ := Prod.mk.inj (Option.some.inj hcut)
      rw [String.ofList_toList, String.ofList_toList]
  · next hcut => cases hcut

end NodeTest

/-! ## Names that pass -/

namespace NameTest

/-- A local part without a prefix is that of the name that is read from the same text. -/
theorem unprefixed_accepts_iff (h : ':' ∉ text.toList) :
    (unprefixed text).accepts (.ofLexical other) = true ↔ other = text := by
  simp only [accepts, Bool.and_eq_true, beq_iff_eq]
  constructor
  · rintro ⟨⟨hlocal, _⟩, hwritten⟩
    rw [← QName.lexical_ofLexical other, QName.lexical, hwritten]
    exact hlocal
  · rintro rfl
    rw [QName.ofLexical_of_absent h]
    exact ⟨⟨rfl, rfl⟩, rfl⟩

theorem written_accepts_iff (h : ':' ∉ before.toList) :
    (written before after).accepts (.ofLexical other) = true ↔
      other = before ++ ":" ++ after ∧ ¬ LacksPart (before ++ ":" ++ after) := by
  rw [← QName.parts_ofLexical_iff h]
  simp only [accepts, Bool.and_eq_true, beq_iff_eq]

/-- In the namespace of `xml` are the names that are read with this prefix. -/
theorem expanded_accepts_iff :
    (expanded xmlNamespace after).accepts (.ofLexical other) = true ↔
      other = "xml" ++ ":" ++ after ∧ ¬ LacksPart ("xml" ++ ":" ++ after) := by
  rw [← QName.parts_ofLexical_iff (by decide)]
  simp only [accepts, Bool.and_eq_true, beq_iff_eq, QName.uri_ofLexical]
  refine and_congr_right fun _ => ?_
  by_cases hxml : (QName.ofLexical other).nsPrefix = some "xml"
  · simp [hxml]
  · simp [hxml]

end NameTest

/-! ## Settling -/

section Settling

variable {ctx : Context} {text : String}
variable (bare : ctx.prefixes = []) (lenient : ctx.config.strict = false)
include bare lenient

/-- Without bindings, `xml` has its namespace and all other prefixes stand as they are written. -/
theorem settleName_of_bare (before after : String) : NodeTest.settleName ctx before after =
    .ok (if before = "xml" then .expanded xmlNamespace after else .written before after) := by
  unfold NodeTest.settleName Context.namespaceOf
  rw [bare]
  by_cases hxml : before = "xml"
  · simp [hxml]
  · simp [hxml, lenient]

/-- Without bindings, a written test passes the name that is read from the same text, and no other;
and not even this one if the text lacks a part. -/
theorem settle_ofLexical (particular : ¬ IsWildcard text) (axis : Axis) :
    ∃ test, (NodeTest.ofLexical text).settle ctx axis = .ok (.named axis.principal test) ∧
      ∀ other, test.accepts (.ofLexical other) = true ↔ other = text ∧ ¬ LacksPart text := by
  cases firstColon text with
  | absent h =>
      rw [NodeTest.ofLexical_of_absent h (mt (isWildcard_iff_of_absent h).mpr particular)]
      refine ⟨.unprefixed text, rfl, fun other => ?_⟩
      rw [NameTest.unprefixed_accepts_iff h]
      exact (and_iff_left fun hlacks => h (mem_of_lacksPart hlacks)).symm
  | @parts before after h =>
      have hsettled : (NodeTest.name (some before) after).settle ctx axis =
          (NodeTest.settleName ctx before after).map (.named axis.principal) := rfl
      rw [NodeTest.ofLexical_parts h (mt (isWildcard_parts_iff h).mpr particular), hsettled,
        settleName_of_bare bare lenient]
      refine ⟨_, rfl, fun other => ?_⟩
      -- `xml` is resolved to its namespace, which no other prefix of a name that was read has
      split
      · next hxml =>
          subst hxml
          exact NameTest.expanded_accepts_iff
      · exact NameTest.written_accepts_iff h

end Settling

end XPathTree
