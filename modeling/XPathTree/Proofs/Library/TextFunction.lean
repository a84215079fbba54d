import XPathTree.Proofs.Library.CoreFunction
import XPathTree.Proofs.Text.Search
import XPathTree.Proofs.Text.Slice
import XPathTree.Proofs.Text.Spacing

/-!
# Functions on texts

What calls of the core functions on texts answer, from the laws of the operations that they
perform: `substring` between whole numbers takes the characters at the positions between them
(`call_substring_whole`), the four searches agree on the leftmost occurrence (`call_searches`),
and `normalize-space` gives the tokens of a text with one space between any two of them
(`call_normalizeSpace`).
-/

namespace XPathTree.Library

open CoreFunction
open Double (IsInt isInt_ofInt isInt_zero)

/-! ## Parts by position -/

section Parts

variable {a l k : Int} {start length one next : Double}

theorem cut_some_eq (source : String) (hstart : start.IsInt a) (hlength : length.IsInt l)
    (ha : a.natAbs ≤ Nat.pow 2 53) (hal : (a + l).natAbs ≤ Nat.pow 2 53) :
    cut source start (some length) = String.ofList
      (Text.atPositions (fun position => decide (a ≤ position ∧ position < a + l))
        source.toList) := by
  rw [cut, Option.map_some, hstart.round_eq, hlength.round_eq,
    Text.slice_some_eq hstart (hstart.add hlength hal) ha hal]

theorem cut_none_eq (source : String) (hstart : start.IsInt a) (ha : a.natAbs ≤ Nat.pow 2 53) :
    cut source start none = String.ofList
      (Text.atPositions (fun position => decide (a ≤ position)) source.toList) := by
  rw [cut, Option.map_none, hstart.round_eq, Text.slice_none_eq hstart ha]

/-- What stands below the position behind `k` characters and what stands from there on make up
the text, also where `k` is negative or larger than the text. -/
theorem cut_append_cut (s : String) (hone : one.IsInt 1) (hlength : length.IsInt k)
    (hnext : next.IsInt (k + 1)) (hk : k.natAbs ≤ Nat.pow 2 50) :
    cut s one (some length) ++ cut s next none = s := by
  have hbound : Nat.pow 2 50 + 1 ≤ Nat.pow 2 53 := by decide
  have hlow : Text.atPositions (fun p => decide (1 ≤ (p : Int) ∧ (p : Int) < 1 + k)) s.toList =
      Text.atPositions (fun p => decide ((p : Int) < k + 1)) s.toList :=
    Text.atPositions_congr fun p hp _ => decide_eq_decide.mpr (by omega)
  rw [cut_some_eq s hone hlength (by omega) (by omega), cut_none_eq s hnext (by omega), hlow,
    ← String.ofList_append, Text.atPositions_append, String.ofList_toList]

theorem call_substring_two (ctx : Context) (s : String) (start : Double) :
    core.call (.core "substring") ctx [.string s, .number start] =
      .ok (.string (cut s start none)) :=
  call_core .substring ctx [.string s, .number start]

theorem call_substring_three (ctx : Context) (s : String) (start length : Double) :
    core.call (.core "substring") ctx [.string s, .number start, .number length] =
      .ok (.string (cut s start (some length))) :=
  call_core .substring ctx [.string s, .number start, .number length]

/-- Between whole numbers `substring` gives the characters at the positions from the first one on
that are below the sum, and without a length those from the first one on, in order. A text is the
concatenation of its first `k` characters and its others, whatever the sign of `k`. -/
theorem call_substring_whole (ctx : Context) (s : String) :
    (∀ (start length : Double) (a l : Int), start.IsInt a → length.IsInt l →
      a.natAbs ≤ Nat.pow 2 50 → l.natAbs ≤ Nat.pow 2 50 →
        core.call (.core "substring") ctx [.string s, .number start, .number length] =
          .ok (.string (String.ofList
            (Text.atPositions (fun p => decide (a ≤ p ∧ p < a + l)) s.toList)))) ∧
    (∀ (start : Double) (a : Int), start.IsInt a → a.natAbs ≤ Nat.pow 2 50 →
        core.call (.core "substring") ctx [.string s, .number start] =
          .ok (.string (String.ofList
            (Text.atPositions (fun p => decide (a ≤ p)) s.toList)))) ∧
    ∀ (one length next : Double) (k : Int), one.IsInt 1 → length.IsInt k → next.IsInt (k + 1) →
      k.natAbs ≤ Nat.pow 2 50 → ∃ front behind,
        core.call (.core "substring") ctx [.string s, .number one, .number length] =
            .ok (.string front) ∧
          core.call (.core "substring") ctx [.string s, .number next] = .ok (.string behind) ∧
          core.call (.core "concat") ctx [.string front, .string behind] = .ok (.string s) := by
  have hbound : Nat.pow 2 50 + Nat.pow 2 50 ≤ Nat.pow 2 53 := by decide
  refine ⟨fun start length a l hstart hlength ha hl => ?_, fun start a hstart ha => ?_,
    fun one length next k hone hlength hnext hk => ?_⟩
  · rw [call_substring_three, cut_some_eq s hstart hlength (by omega) (by omega)]
  · rw [call_substring_two, cut_none_eq s hstart (by omega)]
  · refine ⟨_, _, call_substring_three ctx s _ _, call_substring_two ctx s _, ?_⟩
    have hjoin := cut_append_cut s hone hlength hnext hk
    rw [call_concat, List.map_cons, List.map_singleton, String.join_cons, String.join_cons,
      String.join_nil, String.append_empty]
    exact congrArg _ (congrArg _ hjoin)

/-- From zero on a length of three reaches two characters, and nothing is below a negative zero.
A negative length leaves all characters to the second part. -/
theorem call_substring_whole_signed :
    let ctx := Context.ofNode .empty ⟨0⟩
    (Double.ofInt 0).IsInt 0 ∧ (Double.ofInt 3).IsInt 3 ∧ (Double.zero true).IsInt 0 ∧
      (Double.ofInt 1).IsInt 1 ∧ (Double.ofInt (-4)).IsInt (-4) ∧ (Double.ofInt (-3)).IsInt (-3) ∧
      core.call (.core "substring") ctx
          [.string "aé€z", .number (.ofInt 0), .number (.ofInt 3)] = .ok (.string "aé") ∧
      core.call (.core "substring") ctx [.string "aé€z", .number (.zero true)] =
          .ok (.string "aé€z") ∧
      ∃ front behind,
        core.call (.core "substring") ctx
            [.string "aé€z", .number (.ofInt 1), .number (.ofInt (-4))] = .ok (.string front) ∧
          core.call (.core "substring") ctx [.string "aé€z", .number (.ofInt (-3))] =
            .ok (.string behind) ∧
          core.call (.core "concat") ctx [.string front, .string behind] =
            .ok (.string "aé€z") := by
  have hint : ∀ k : Int, k.natAbs ≤ 4 → (Double.ofInt k).IsInt k := fun k hk =>
    isInt_ofInt (Nat.le_trans hk (by decide))
  obtain ⟨hpart, hrest, hjoin⟩ := call_substring_whole (Context.ofNode .empty ⟨0⟩) "aé€z"
  refine ⟨hint 0 (by decide), hint 3 (by decide), isInt_zero true, hint 1 (by decide),
    hint (-4) (by decide), hint (-3) (by decide), ?_, ?_, ?_⟩
  · exact hpart _ _ 0 3 (hint 0 (by decide)) (hint 3 (by decide)) (by decide) (by decide)
  · exact hrest _ 0 (isInt_zero true) (by decide)
  · exact hjoin _ _ _ (-4) (hint 1 (by decide)) (hint (-4) (by decide)) (hint (-3) (by decide))
      (by decide)

end Parts

/-! ## Searches -/

section Searches

variable {s t x y : String}

theorem occurs_toList_iff :
    Text.occurs t.toList s.toList = true ↔ ∃ x y, s = x ++ t ++ y := by
  rw [Text.occurs_iff]
  constructor
  · rintro ⟨x, y, h⟩
    refine ⟨.ofList x, .ofList y, String.toList_injective ?_⟩
    rw [h, String.toList_append, String.toList_append, String.toList_ofList, String.toList_ofList,
      List.append_assoc]
  · rintro ⟨x, y, rfl⟩
    refine ⟨x.toList, y.toList, ?_⟩
    rw [String.toList_append, String.toList_append, List.append_assoc]

theorem before_append_after (h : Text.occurs t.toList s.toList = true) :
    String.ofList (Text.before t.toList s.toList) ++
      (t ++ String.ofList (Text.after t.toList s.toList)) = s := by
  refine String.toList_injective ?_
  rw [String.toList_append, String.toList_append, String.toList_ofList, String.toList_ofList,
    ← List.append_assoc, Text.before_append_after h]

/-- What is in front of the leftmost occurrence is in front of every other one. -/
theorem exists_eq_before_append (h : s = x ++ t ++ y) :
    ∃ more, x = String.ofList (Text.before t.toList s.toList) ++ more := by
  have hlist : s.toList = x.toList ++ (t.toList ++ y.toList) := by
    rw [h, String.toList_append, String.toList_append, List.append_assoc]
  have hwhole := Text.before_append_after (Text.occurs_iff.mpr ⟨_, _, hlist⟩)
  rw [List.append_assoc] at hwhole
  obtain ⟨more, hmore⟩ := List.prefix_of_prefix_length_le ⟨_, hwhole⟩ ⟨_, hlist.symm⟩
    (Text.length_before_le hlist)
  refine ⟨.ofList more, String.toList_injective ?_⟩
  rw [String.toList_append, String.toList_ofList, String.toList_ofList, hmore]

/-- The searches agree. A text that contains another one is the concatenation of what is before
it, the other one and what is after it, and no occurrence is further in front, by characters or by
bytes. Otherwise both parts are empty. A text starts with another one if it contains it with
nothing before. -/
theorem call_searches (ctx : Context) (s t : String) :
    ∃ found starts before after,
      core.call (.core "contains") ctx [.string s, .string t] = .ok (.boolean found) ∧
      core.call (.core "starts-with") ctx [.string s, .string t] = .ok (.boolean starts) ∧
      core.call (.core "substring-before") ctx [.string s, .string t] = .ok (.string before) ∧
      core.call (.core "substring-after") ctx [.string s, .string t] = .ok (.string after) ∧
      (found = true ↔ ∃ x y, s = x ++ t ++ y) ∧
      (found = true →
        core.call (.core "concat") ctx [.string before, .string t, .string after] =
            .ok (.string s) ∧
          ∀ x y, s = x ++ t ++ y →
            before.length ≤ x.length ∧ before.utf8ByteSize ≤ x.utf8ByteSize) ∧
      (found = false → before = "" ∧ after = "") ∧
      (starts = true ↔ found = true ∧ before = "") := by
  refine ⟨_, _, _, _, call_core .contains ctx [.string s, .string t],
    call_core .startsWith ctx [.string s, .string t],
    call_core .substringBefore ctx [.string s, .string t],
    call_core .substringAfter ctx [.string s, .string t], occurs_toList_iff, fun hfound => ?_,
    fun hfound => ?_, ?_⟩
  · refine ⟨?_, fun x y h => ?_⟩
    · have hjoin := before_append_after hfound
      rw [call_concat, List.map_cons, List.map_cons, List.map_singleton, String.join_cons,
        String.join_cons, String.join_cons, String.join_nil, String.append_empty]
      exact congrArg _ (congrArg _ hjoin)
    · obtain ⟨more, rfl⟩ := exists_eq_before_append h
      rw [String.length_append, String.utf8ByteSize_append]
      exact ⟨Nat.le_add_right _ _, Nat.le_add_right _ _⟩
  · exact ⟨congrArg String.ofList (Text.before_of_not_occurs hfound),
      congrArg String.ofList (Text.after_of_not_occurs hfound)⟩
  · rw [String.ofList_eq_empty_iff]
    exact Text.isPrefixOf_iff

/-- Of two occurrences that overlap the first one counts, behind a character of two bytes. -/
theorem call_searches_overlap :
    let ctx := Context.ofNode .empty ⟨0⟩
    core.call (.core "contains") ctx [.string "éaéaéa", .string "aéa"] = .ok (.boolean true) ∧
      core.call (.core "starts-with") ctx [.string "éaéaéa", .string "aéa"] =
        .ok (.boolean false) ∧
      core.call (.core "substring-before") ctx [.string "éaéaéa", .string "aéa"] =
        .ok (.string "é") ∧
      core.call (.core "substring-after") ctx [.string "éaéaéa", .string "aéa"] =
        .ok (.string "éa") ∧
      core.call (.core "concat") ctx [.string "é", .string "aéa", .string "éa"] =
        .ok (.string "éaéaéa") ∧
      ∀ x y, "éaéaéa" = x ++ "aéa" ++ y → "é".length ≤ x.length ∧ 2 ≤ x.utf8ByteSize := by
  obtain ⟨found, starts, before, after, hcontains, hstarts, hbefore, hafter, hoccurs, hfound, _,
    hfront⟩ := call_searches (Context.ofNode .empty ⟨0⟩) "éaéaéa" "aéa"
  obtain rfl : before = "é" := (Value.string.inj (Except.ok.inj hbefore)).symm
  obtain rfl : after = "éa" := (Value.string.inj (Except.ok.inj hafter)).symm
  obtain rfl : found = true := hoccurs.mpr ⟨"é", "éa", by decide⟩
  obtain rfl : starts = false := by
    refine Bool.eq_false_iff.mpr fun h => ?_
    exact absurd (hfront.mp h).2 (by decide)
  exact ⟨hcontains, hstarts, hbefore, hafter, hfound rfl⟩

end Searches

/-! ## Normalised space -/

theorem run_normalizeSpace (ctx : Context) (s : String) :
    core.call (.core "normalize-space") ctx [.string s] =
      .ok (.string (String.ofList (Text.normalizeSpace s.toList))) :=
  call_core .normalizeSpace ctx [.string s]

/-- What `normalize-space` gives has one space between any two tokens, none at the ends and no
other blank. Its tokens are the maximal runs of the argument without spaces, tabs, line feeds and
carriage returns, in order. So it stays as it is when it is normalised again, and it is given for
exactly the texts with these tokens. -/
theorem call_normalizeSpace (ctx : Context) (s : String) :
    (∃ result words,
      core.call (.core "normalize-space") ctx [.string s] = .ok (.string result) ∧
      Text.Spaced result.toList ∧
      Text.HasTokens (· ∈ [' ', '\t', '\n', '\r']) s.toList words ∧
      Text.HasTokens (· == ' ') result.toList words ∧
      core.call (.core "normalize-space") ctx [.string result] = .ok (.string result) ∧
      ∀ other, core.call (.core "normalize-space") ctx [.string other] = .ok (.string result) ↔
        Text.HasTokens (· ∈ [' ', '\t', '\n', '\r']) other.toList words) ∧
    core.call (.core "normalize-space") ctx [] =
      core.call (.core "normalize-space") ctx
        [.string (ctx.document.stringValue ctx.node)] := by
  rw [← Text.isMarkupBlank_eq]
  refine ⟨⟨_, Text.tokens Text.isMarkupBlank s.toList, run_normalizeSpace ctx s, ?_,
    Text.hasTokens_iff.mpr rfl, ?_, ?_, fun other => ?_⟩, ?_⟩
  · rw [String.toList_ofList]
    exact Text.spaced_normalizeSpace s.toList
  · rw [String.toList_ofList]
    exact Text.hasTokens_normalizeSpace s.toList
  · have hagain := Text.normalizeSpace_eq_iff.mpr (Text.tokens_normalizeSpace s.toList)
    rw [run_normalizeSpace, String.toList_ofList, hagain]
  · rw [run_normalizeSpace, Except.ok.injEq, Value.string.injEq, String.ofList_inj,
      Text.normalizeSpace_eq_iff, Text.hasTokens_iff]
  · rw [run_normalizeSpace]
    exact call_core .normalizeSpace ctx []

end XPathTree.Library
