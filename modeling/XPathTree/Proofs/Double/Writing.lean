import XPathTree.Proofs.Double.Grammar
import XPathTree.Proofs.Double.Whole

/-!
# Writing numbers

The written form of a numeral denotes that numeral again (`Numeral.denotes_write`), so what is
read from the text of a number is decided by the numeral alone. The numeral chosen for a finite
double is one that rounds to it (`Magnitude.toDouble_shortest`, `toDouble_numeral`): a shortest
one because only such are chosen from, the exact one because ten divides the ticks of a double as
often as there are places. Whole numbers below the bound are written by way of 64-bit whole
numbers, which hold all of them (`IsInt.toInt_toInt64`).
-/

namespace XPathTree

namespace Numeral

variable {text whole fraction : List Char} {numeral : Numeral}

/-! ## Digits -/

theorem isDigit_padded (count digits : Nat) :
    ∀ c ∈ List.replicate count '0' ++ Nat.toDigits 10 digits, c.isDigit = true := by
  refine List.forall_mem_append.mpr ⟨fun c hc => ?_, fun c hc => ?_⟩
  · rw [List.eq_of_mem_replicate hc]
    rfl
  · exact Nat.isDigit_of_mem_toDigits (by decide) (by decide) hc

/-- Zeros in front do not change what digits denote. -/
theorem digitsValue_padded (count digits : Nat) :
    digitsValue (List.replicate count '0' ++ Nat.toDigits 10 digits) = digits := by
  show Nat.ofDigitChars 10 (List.replicate count '0' ++ Nat.toDigits 10 digits) 0 = digits
  rw [Nat.ofDigitChars_append, Nat.ofDigitChars_replicate_zero, Nat.mul_zero,
    Nat.ofDigitChars_ten_toDigits]

/-! ## The written form -/

theorem denotes_signed (negative : Bool) (h : Unsigned text whole fraction) :
    Denotes ((if negative then ['-'] else []) ++ text) (ofDigits negative whole fraction) := by
  cases negative with
  | false => exact .plain h
  | true => exact .minus h

theorem denotes_pointed (negative : Bool) {padded : List Char} {places : Nat}
    (hdigits : ∀ c ∈ padded, c.isDigit = true) (hlength : places < padded.length) :
    Denotes ((if negative then ['-'] else []) ++ padded.take (padded.length - places) ++
      '.' :: padded.drop (padded.length - places)) ⟨negative, digitsValue padded, places⟩ := by
  have hwhole : padded.take (padded.length - places) ≠ [] :=
    List.ne_nil_of_length_pos (by rw [List.length_take]; omega)
  have hplaces : (padded.drop (padded.length - places)).length = places := by
    rw [List.length_drop, Nat.sub_sub_self (Nat.le_of_lt hlength)]
  have h := denotes_signed negative (.point hwhole
    (fun c hc => hdigits c (List.mem_of_mem_take hc))
    (fun c hc => hdigits c (List.mem_of_mem_drop (i := padded.length - places) hc)))
  rwa [ofDigits, List.take_append_drop, hplaces, ← List.append_assoc] at h

/-- What is written denotes the numeral it is written for. -/
theorem denotes_write (numeral : Numeral) : Denotes numeral.write numeral := by
  obtain ⟨negative, digits, places⟩ := numeral
  simp only [write]
  split
  · next hplaces =>
      subst hplaces
      have hdigits := isDigit_padded 0 digits
      have hvalue := digitsValue_padded 0 digits
      rw [List.replicate_zero, List.nil_append] at hdigits hvalue
      have h := denotes_signed negative (.whole Nat.toDigits_ne_nil hdigits)
      rwa [ofDigits, List.append_nil, hvalue] at h
  · let count := places + 1 - (Nat.toDigits 10 digits).length
    have hlength : places < (List.replicate count '0' ++ Nat.toDigits 10 digits).length := by
      rw [List.length_append, List.length_replicate]
      omega
    have h := denotes_pointed negative (isDigit_padded count digits) hlength
    rwa [digitsValue_padded] at h

/-- A text that denotes a numeral is read as the numeral's double. -/
theorem Denotes.parse_eq (h : Denotes text numeral) :
    Double.parse (String.ofList text) = numeral.toDouble := by
  have hwritten : Written text numeral :=
    ⟨[], text, [], List.forall_mem_nil _, (List.append_nil text).symm, h⟩
  rw [Double.parse, String.toList_ofList, written_iff.mp hwritten]

/-- A numeral is written with digits, points and minus signs only. -/
theorem Denotes.digit_or_mark (h : Denotes text numeral) {c : Char} (hc : c ∈ text) :
    c.isDigit = true ∨ c = '.' ∨ c = '-' := by
  cases h with
  | plain h => exact (h.digit_or_point hc).imp_right .inl
  | minus h =>
      rcases List.mem_cons.mp hc with rfl | hc
      · exact .inr (.inr rfl)
      · exact (h.digit_or_point hc).imp_right .inl

/-! ## Numerals of one number -/

/-- Dropping zeros at the end keeps the number. -/
theorem toDouble_dropZeros (negative : Bool) (digits places : Nat) :
    (dropZeros negative digits places).toDouble = toDouble ⟨negative, digits, places⟩ := by
  induction places generalizing digits with
  | zero => rfl
  | succ places ih =>
      rw [dropZeros]
      split
      · next hzero =>
          have hdigits : digits = digits / 10 * 10 :=
            (Nat.div_mul_cancel (Nat.dvd_of_mod_eq_zero hzero)).symm
          rw [ih]
          simp only [toDouble]
          conv => rhs; rw [hdigits]
          rw [Nat.mul_right_comm, Nat.pow_eq, Nat.pow_eq, Nat.pow_succ,
            Double.ofRatio_mul_right (by decide)]
      · rfl

end Numeral

namespace Magnitude

open Double

/-- Written with all its places, a tick is a power of five. -/
theorem pow_five_mul_unit : Nat.pow 5 tickPlaces * unit = Nat.pow 10 tickPlaces := by
  unfold tickPlaces unit
  generalize 1074 = exponent
  exact (Nat.mul_pow 5 2 exponent).symm

/-- The numeral of all places of a magnitude is exact. -/
theorem toDouble_gridNumeral (negative : Bool) (magnitude : Magnitude) :
    (gridNumeral negative (magnitude.ticks * Nat.pow 5 tickPlaces) 0).toDouble =
      finite negative magnitude := by
  have hplaces : ¬ tickPlaces ≤ 0 := by decide
  rw [gridNumeral, if_neg hplaces, Numeral.toDouble_dropZeros, Nat.sub_zero, Numeral.toDouble,
    Nat.mul_assoc, pow_five_mul_unit]
  generalize tickPlaces = places
  have hpos : 0 < Nat.pow 10 places := Nat.pow_pos (by decide)
  have hratio := ofRatio_mul_right hpos negative magnitude.ticks 1
  rwa [Nat.one_mul, ofRatio_ticks] at hratio

/-- The shortest numeral reads back. -/
theorem toDouble_shortest (negative : Bool) (magnitude : Magnitude) :
    (shortest negative magnitude).toDouble = finite negative magnitude := by
  rw [shortest]
  generalize hfound : List.findSome? _ _ = found
  cases found with
  | none =>
      rw [Option.getD_none]
      exact toDouble_gridNumeral negative magnitude
  | some numeral =>
      obtain ⟨_, _, hfind⟩ := List.exists_of_findSome?_eq_some hfound
      have hreads := List.find?_some hfind
      rw [Option.getD_some]
      exact of_decide_eq_true hreads

end Magnitude

namespace Double

variable {negative : Bool} {magnitude : Magnitude} {k : Int}

/-! ## Whole numbers -/

theorem mul_unit_neg_iff : k * unit < 0 ↔ k < 0 := by
  have hunit : (0 : Int) < unit := Int.natCast_pos.mpr unit_pos
  constructor
  · intro hneg
    refine Int.lt_of_mul_lt_mul_right ?_ (Int.le_of_lt hunit)
    rwa [Int.zero_mul]
  · exact fun hneg => Int.mul_neg_of_neg_of_pos hneg hunit

/-- Whole numbers below the bound are within the range of 64 bits. -/
theorem IsInt.toInt_toInt64 {n : Double} (h : n.IsInt k) (hk : k.natAbs < exactBound) :
    n.toInt64.toInt = k := by
  have hbound : exactBound = 1000000000000000000 := rfl
  rw [hbound] at hk
  cases h with
  | finite h =>
      rw [toInt64, h, Int.mul_tdiv_cancel _ (Int.natCast_ne_zero.mpr (Nat.ne_of_gt unit_pos))]
      refine Int64.toInt_ofIntClamp ?_ ?_
      · rw [Int64.toInt_minValue]
        omega
      · rw [Int64.toInt_maxValue]
        omega

theorem IsInt.ticks_eq (h : IsInt (.finite negative magnitude) k) :
    magnitude.ticks = k.natAbs * unit := by
  cases h with
  | finite h => rw [← natAbs_signedTicks negative, h, natAbs_mul_unit]

/-- Other than zero, a whole number has the sign of the double. -/
theorem IsInt.negative_eq (h : IsInt (.finite negative magnitude) k) (hne : magnitude.ticks ≠ 0) :
    decide (k < 0) = negative := by
  cases h with
  | finite h =>
      rw [Bool.eq_iff_iff, decide_eq_true_iff, ← mul_unit_neg_iff, ← h, signedTicks]
      cases negative
      · simp
      · simp only [if_true, iff_true]
        omega

/-- A magnitude that is a multiple of one is a whole number. -/
theorem exists_isInt (negative : Bool) (hmod : magnitude.ticks % unit = 0) :
    ∃ k, IsInt (.finite negative magnitude) k := by
  obtain ⟨count, hcount⟩ := Nat.dvd_of_mod_eq_zero hmod
  refine ⟨if negative then -count else count, .finite ?_⟩
  rw [signedTicks, hcount, Nat.mul_comm]
  cases negative with
  | false => simp only [Bool.false_eq_true, if_false, Int.natCast_mul]
  | true => simp only [if_true, Int.natCast_mul, Int.neg_mul]

/-- The numeral of a whole number below the bound is the number itself. -/
theorem IsInt.numeral_eq (h : IsInt (.finite negative magnitude) k) (hk : k.natAbs < exactBound) :
    numeral negative magnitude = .ofInt k := by
  have hticks := h.ticks_eq
  by_cases hzero : magnitude.ticks = 0
  · have hwhole : k.natAbs = 0 :=
      (Nat.mul_eq_zero.mp (hticks.symm.trans hzero)).resolve_right (Nat.ne_of_gt unit_pos)
    obtain rfl := Int.natAbs_eq_zero.mp hwhole
    rw [numeral, if_pos hzero]
    rfl
  · have hdiv : magnitude.ticks / unit = k.natAbs := by
      rw [hticks, Nat.mul_div_cancel _ unit_pos]
    have hmod : magnitude.ticks % unit = 0 := by
      rw [hticks, Nat.mul_mod_left]
    rw [numeral, if_neg hzero, hdiv, if_pos ⟨hmod, hk⟩, h.toInt_toInt64 hk]

/-- The numeral of a whole number rounds to the double that is this number. -/
theorem IsInt.toDouble_ofInt (h : IsInt (.finite negative magnitude) k)
    (hne : magnitude.ticks ≠ 0) :
    (Numeral.ofInt k).toDouble = .finite negative magnitude := by
  rw [Numeral.ofInt, Numeral.toDouble, ← h.ticks_eq, h.negative_eq hne]
  exact ofRatio_ticks negative magnitude

/-! ## Reading what is written -/

/-- The numeral of a double rounds to it; only the sign of zero is lost. -/
theorem toDouble_numeral (negative : Bool) (magnitude : Magnitude) :
    (numeral negative magnitude).toDouble =
      finite (negative && magnitude.ticks != 0) magnitude := by
  by_cases hzero : magnitude.ticks = 0
  · have hticks := ofRatio_ticks false magnitude
    rw [numeral, if_pos hzero, Numeral.toDouble, Nat.zero_mul, ← hzero]
    simpa [hzero] using hticks
  · rw [bne_iff_ne.mpr hzero, Bool.and_true]
    by_cases hwhole : magnitude.ticks % unit = 0 ∧ magnitude.ticks / unit < exactBound
    · obtain ⟨k, hint⟩ := exists_isInt negative hwhole.1
      have hk : k.natAbs < exactBound := by
        have hsmall := hwhole.2
        rwa [hint.ticks_eq, Nat.mul_div_cancel _ unit_pos] at hsmall
      rw [hint.numeral_eq hk, hint.toDouble_ofInt hzero]
    · rw [numeral, if_neg hzero, if_neg hwhole]
      exact magnitude.toDouble_shortest negative

theorem parse_format (negative : Bool) (magnitude : Magnitude) :
    parse (format (finite negative magnitude)) =
      finite (negative && magnitude.ticks != 0) magnitude := by
  rw [format, (numeral negative magnitude).denotes_write.parse_eq, toDouble_numeral]

/-- Zeros equal each other. -/
theorem finite_equals (negative : Bool) (magnitude : Magnitude) :
    (finite (negative && magnitude.ticks != 0) magnitude).equals (finite negative magnitude) =
      true := by
  have hplace : signedTicks (negative && magnitude.ticks != 0) magnitude =
      signedTicks negative magnitude := by
    unfold signedTicks
    by_cases hzero : magnitude.ticks = 0
    · rw [hzero]
      simp
    · rw [bne_iff_ne.mpr hzero, Bool.and_true]
  exact beq_iff_eq.mpr hplace

/-! ## The text of whole numbers -/

/-- A numeral without places is written as the whole number. -/
theorem ofList_write_int (k : Int) :
    String.ofList (Numeral.ofInt k).write = toString k := by
  apply String.toList_injective
  rw [String.toList_ofList, Numeral.ofInt, Numeral.write, if_pos rfl, Int.toString_eq_repr,
    Int.repr_eq_if]
  by_cases hneg : k < 0
  · have hsize : (-k).toNat = k.natAbs := by omega
    rw [if_neg (Int.not_le.mpr hneg), String.toList_append, Nat.toList_repr, hsize]
    simp only [hneg, decide_true, if_true]
    rfl
  · have hsize : k.toNat = k.natAbs := by omega
    rw [if_pos (Int.not_lt.mp hneg), Nat.toList_repr, hsize]
    simp only [hneg, decide_false, Bool.false_eq_true, if_false, List.nil_append]

/-- A whole number is written without a point. -/
theorem point_not_mem_write_int (negative : Bool) (digits : Nat) :
    '.' ∉ Numeral.write ⟨negative, digits, 0⟩ := by
  rw [Numeral.write, if_pos rfl, List.mem_append, not_or]
  refine ⟨?_, Numeral.point_not_mem_of_digits (Numeral.isDigit_padded 0 digits)⟩
  cases negative with
  | false => exact List.not_mem_nil
  | true => simp

/-- Every finite double is read back from its text, which is a plain decimal numeral. Whole
numbers below the bound come through 64 bits unchanged, and are written with all their digits. -/
theorem format_finite_reads_back (negative : Bool) (magnitude : Magnitude) :
    let n := finite negative magnitude
    (parse (format n)).equals n = true ∧
      (∃ numeral, Numeral.Denotes (format n).toList numeral) ∧
      (∀ c ∈ (format n).toList, c ≠ 'e' ∧ c ≠ 'E' ∧ c ≠ '+') ∧
      ∀ k : Int, n.IsInt k → k.natAbs < Nat.pow 10 18 →
        n.toInt64.toInt = k ∧ format n = toString k ∧ '.' ∉ (format n).toList := by
  intro n
  have hdenotes : Numeral.Denotes (format n).toList (numeral negative magnitude) := by
    rw [format, String.toList_ofList]
    exact (numeral negative magnitude).denotes_write
  refine ⟨?_, ⟨_, hdenotes⟩, fun c hc => ?_, fun k hint hk => ⟨hint.toInt_toInt64 hk, ?_, ?_⟩⟩
  · rw [parse_format]
    exact finite_equals negative magnitude
  · rcases hdenotes.digit_or_mark hc with hdigit | rfl | rfl
    · refine ⟨?_, ?_, ?_⟩ <;> rintro rfl <;> cases hdigit
    · decide
    · decide
  · rw [format, hint.numeral_eq hk, ofList_write_int]
  · rw [format, hint.numeral_eq hk, String.toList_ofList]
    exact point_not_mem_write_int _ _

/-- The negative whole number next to the bound: with 60 bits, it is a double only because it is a
multiple of 128. -/
theorem format_finite_reads_back_bound :
    ∃ magnitude : Magnitude, IsInt (.finite true magnitude) (-999999999999999872) ∧
      (parse (format (.finite true magnitude))).equals (.finite true magnitude) = true ∧
      (toInt64 (.finite true magnitude)).toInt = -999999999999999872 ∧
      format (.finite true magnitude) = "-999999999999999872" := by
  let magnitude : Magnitude :=
    ⟨roundTicks (999999999999999872 * unit) 1, by decide +kernel, spacing_dvd_roundTicks _ _⟩
  have hint : IsInt (.finite true magnitude) (-999999999999999872) :=
    .finite (by decide +kernel)
  obtain ⟨hread, _, _, hwhole⟩ := format_finite_reads_back true magnitude
  obtain ⟨hrange, htext, _⟩ := hwhole _ hint (by decide)
  exact ⟨magnitude, hint, hread, hrange, htext⟩

end Double

end XPathTree
