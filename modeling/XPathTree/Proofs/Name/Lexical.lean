import XPathTree.QName

/-!
# Names as they are written

A text either has no colon or is parted by its first one (`FirstColon`). Read as a name, it gets a
prefix exactly if both parts have characters; in every other case the whole text is the local
part. Nothing is lost in this: written down again, the name is the text (`lexical_ofLexical`). A
name that was read has a namespace only through its prefix, so that names which denote the same
thing have been read from one text (`denotesSame_ofLexical_iff`).
-/

namespace XPathTree

namespace Text

/-- How the first colon parts a text. -/
inductive FirstColon : String → Prop
  | absent {text : String} (h : ':' ∉ text.toList) : FirstColon text
  | parts {before after : String} (h : ':' ∉ before.toList) : FirstColon (before ++ ":" ++ after)

variable {text before after : String}

theorem toList_parts (before after : String) :
    (before ++ ":" ++ after).toList = before.toList ++ ':' :: after.toList := by
  rw [String.toList_append, String.toList_append, List.append_assoc]
  rfl

theorem firstColon (text : String) : FirstColon text := by
  cases h : splitAtFirst ':' text.toList with
  | none => exact .absent (splitAtFirst_eq_none_iff.mp h)
  | some cut =>
      obtain ⟨before, after⟩ := cut
      obtain ⟨htext, hbefore⟩ := splitAtFirst_eq_some_iff.mp h
      have hparts : text = String.ofList before ++ ":" ++ String.ofList after := by
        refine String.toList_injective ?_
        rw [toList_parts, String.toList_ofList, String.toList_ofList, htext]
      rw [hparts]
      exact .parts (by rwa [String.toList_ofList])

theorem splitAtFirst_parts (h : ':' ∉ before.toList) :
    splitAtFirst ':' (before ++ ":" ++ after).toList = some (before.toList, after.toList) :=
  splitAtFirst_eq_some_iff.mpr ⟨toList_parts before after, h⟩

end Text

namespace QName

open Text

variable {text before after nsPrefix s t : String}

/-! ## Reading -/

theorem ofLexical_of_absent (h : ':' ∉ text.toList) : ofLexical text = plain text := by
  unfold ofLexical
  rw [splitAtFirst_eq_none_iff.mpr h]

/-- Two parts with characters are a prefix and a local part. -/
theorem ofLexical_parts (h : ':' ∉ before.toList) (hbefore : before ≠ "") (hafter : after ≠ "") :
    ofLexical (before ++ ":" ++ after) =
      ⟨some before, after, if before = "xml" then some xmlNamespace else none⟩ := by
  unfold ofLexical
  rw [splitAtFirst_parts h]
  cases hb : before.toList with
  | nil => exact absurd (String.toList_eq_nil_iff.mp hb) hbefore
  | cons p rest =>
      cases ha : after.toList with
      | nil => exact absurd (String.toList_eq_nil_iff.mp ha) hafter
      | cons c rest' =>
          simp only [← hb, ← ha, String.ofList_toList]

/-- With nothing on one side of its first colon, a text is a local part. -/
theorem ofLexical_of_missing (h : ':' ∉ before.toList) (hmissing : before = "" ∨ after = "") :
    ofLexical (before ++ ":" ++ after) = plain (before ++ ":" ++ after) := by
  unfold ofLexical
  rw [splitAtFirst_parts h]
  rcases hmissing with rfl | rfl
  · rfl
  · cases before.toList <;> rfl

/-- A text is read as a local part, or as two parts with characters. -/
theorem ofLexical_cases (text : String) : ofLexical text = plain text ∨
    ∃ before after, before ≠ "" ∧ after ≠ "" ∧ text = before ++ ":" ++ after ∧
      ofLexical text =
        ⟨some before, after, if before = "xml" then some xmlNamespace else none⟩ := by
  cases firstColon text with
  | absent h => exact .inl (ofLexical_of_absent h)
  | @parts before after h =>
      by_cases hmissing : before = "" ∨ after = ""
      · exact .inl (ofLexical_of_missing h hmissing)
      · obtain ⟨hbefore, hafter⟩ := not_or.mp hmissing
        exact .inr ⟨before, after, hbefore, hafter, rfl, ofLexical_parts h hbefore hafter⟩

/-- A name that was read is written as the text that it was read from. -/
theorem lexical_ofLexical (text : String) : (ofLexical text).lexical = text := by
  rcases ofLexical_cases text with h | ⟨before, after, _, _, rfl, h⟩
  · rw [h]
    rfl
  · rw [h]
    rfl

/-- A prefix that was read has characters, and so has the local part behind it. -/
theorem ne_of_nsPrefix_ofLexical (h : (ofLexical text).nsPrefix = some nsPrefix) :
    nsPrefix ≠ "" ∧ (ofLexical text).localPart ≠ "" := by
  rcases ofLexical_cases text with hread | ⟨before, after, hbefore, hafter, rfl, hread⟩
  · rw [hread] at h
    cases h
  · rw [hread] at h ⊢
    obtain rfl := Option.some.inj h
    exact ⟨hbefore, hafter⟩

/-! ## Comparing -/

/-- Of the names that are read, those with the prefix `xml` have a namespace. -/
theorem uri_ofLexical (text : String) : (ofLexical text).uri =
    if (ofLexical text).nsPrefix = some "xml" then some xmlNamespace else none := by
  rcases ofLexical_cases text with h | ⟨before, after, _, _, rfl, h⟩
  · rw [h]
    rfl
  · simp only [h, Option.some.injEq]

/-- Prefix and local part tell which text was read. -/
theorem eq_of_parts (hwritten : (ofLexical s).nsPrefix = (ofLexical t).nsPrefix)
    (hlocal : (ofLexical s).localPart = (ofLexical t).localPart) : s = t := by
  rw [← lexical_ofLexical s, ← lexical_ofLexical t, lexical, lexical, hwritten, hlocal]

/-- Names that were read denote the same thing only if they were read from the same text. -/
theorem denotesSame_ofLexical_iff :
    (ofLexical s).denotesSame (ofLexical t) = true ↔ s = t := by
  constructor
  · intro h
    unfold denotesSame at h
    rw [uri_ofLexical, uri_ofLexical, Bool.and_eq_true, beq_iff_eq] at h
    obtain ⟨hlocal, hspace⟩ := h
    -- names with and without the prefix `xml` differ in having a namespace
    have hwritten : (ofLexical s).nsPrefix = (ofLexical t).nsPrefix := by
      by_cases hs : (ofLexical s).nsPrefix = some "xml"
      · by_cases ht : (ofLexical t).nsPrefix = some "xml"
        · rw [hs, ht]
        · rw [if_pos hs, if_neg ht] at hspace
          cases hspace
      · by_cases ht : (ofLexical t).nsPrefix = some "xml"
        · rw [if_neg hs, if_pos ht] at hspace
          cases hspace
        · rw [if_neg hs, if_neg ht] at hspace
          exact beq_iff_eq.mp hspace
    exact eq_of_parts hwritten hlocal
  · rintro rfl
    exact denotesSame_refl _

end QName

end XPathTree
