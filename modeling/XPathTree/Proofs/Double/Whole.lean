import XPathTree.Double.Arithmetic
import XPathTree.Proofs.Double.Equality

/-!
# Whole numbers

A double is a whole number when its ticks are that many times those in one (`IsInt`). The whole
numbers of 53 bits are all doubles (`isInt_ofInt`); they are added exactly (`IsInt.add`), and
rounding to whole numbers keeps every whole number as it is (`IsInt.round_eq`).

A natural number beyond 53 bits is rounded, but never to the other side of a double
(`le_roundTicks`). So natural numbers of any size are compared with whole numbers of 53 bits as if
they were exact (`IsInt.lessOrEqual_ofNat`, `IsInt.ofNat_lessThan`).
-/

namespace XPathTree.Double

variable {num den ticks bound : Nat} {negative : Bool} {j k : Int} {n a b : Double}

/-! ## Exact results -/

/-- Only the ratio of the two numbers matters. -/
theorem roundDiv_mul_right {factor : Nat} (hfactor : 0 < factor) (num den : Nat) :
    roundDiv (num * factor) (den * factor) = roundDiv num den := by
  simp only [roundDiv, Nat.mul_div_mul_right _ _ hfactor, Nat.mul_mod_mul_right, ← Nat.mul_assoc,
    Nat.mul_lt_mul_right hfactor]

theorem roundTicks_mul_right {factor : Nat} (hfactor : 0 < factor) (num den : Nat) :
    roundTicks (num * factor) (den * factor) = roundTicks num den := by
  simp only [roundTicks, Nat.mul_div_mul_right _ _ hfactor]
  rw [Nat.mul_right_comm, roundDiv_mul_right hfactor]

theorem ofRatio_mul_right {factor : Nat} (hfactor : 0 < factor) (negative : Bool)
    (num den : Nat) : ofRatio negative (num * factor) (den * factor) = ofRatio negative num den := by
  simp only [ofRatio, roundTicks_mul_right hfactor]

/-- The ticks of a double are its own. -/
theorem ofRatio_ticks (negative : Bool) (magnitude : Magnitude) :
    ofRatio negative magnitude.ticks 1 = finite negative magnitude := by
  simp only [ofRatio, roundTicks_one magnitude.spacing_dvd, dif_pos magnitude.lt_limit]

theorem natAbs_signedTicks (negative : Bool) (magnitude : Magnitude) :
    (signedTicks negative magnitude).natAbs = magnitude.ticks := by
  cases negative with
  | false => exact Int.natAbs_natCast _
  | true => exact Int.natAbs_neg _

theorem ofTicks_signedTicks (negative : Bool) (magnitude : Magnitude) :
    ofTicks negative (signedTicks negative magnitude) = finite negative magnitude := by
  have hsign : (if signedTicks negative magnitude = 0 then negative
      else decide (signedTicks negative magnitude < 0)) = negative := by
    unfold signedTicks
    cases negative <;> grind
  rw [ofTicks, hsign, natAbs_signedTicks, ofRatio_ticks]

/-- A signed number of ticks that is at a double's place is kept. -/
theorem exists_ofTicks_eq (negative : Bool) {ticks : Int} (hlt : ticks.natAbs < limit)
    (hdvd : spacing ticks.natAbs ∣ ticks.natAbs) :
    ∃ negative' magnitude, ofTicks negative ticks = finite negative' magnitude ∧
      signedTicks negative' magnitude = ticks := by
  refine ⟨_, ⟨ticks.natAbs, hlt, hdvd⟩, ofRatio_ticks _ ⟨ticks.natAbs, hlt, hdvd⟩, ?_⟩
  unfold signedTicks
  grind

/-- Rounding does not cross a multiple of the spacing. -/
theorem le_roundTicks_of_spacing_dvd (hdvd : spacing num ∣ bound) (hle : bound ≤ num) :
    bound ≤ roundTicks num 1 := by
  obtain ⟨count, rfl⟩ := hdvd
  have hstep := spacing_pos num
  have hcount : count ≤ roundDiv num (spacing num) := by
    refine Nat.le_trans ((Nat.le_div_iff_mul_le hstep).mpr ?_) (div_le_roundDiv _ _)
    rwa [Nat.mul_comm]
  simp only [roundTicks, Nat.div_one, Nat.one_mul]
  rw [Nat.mul_comm]
  exact Nat.mul_le_mul_right _ hcount

/-- Rounding does not cross a double. -/
theorem le_roundTicks (hdvd : spacing ticks ∣ ticks) (hle : ticks ≤ num) :
    ticks ≤ roundTicks num 1 := by
  by_cases hzero : num = 0
  · exact Nat.le_trans hle (hzero ▸ Nat.zero_le _)
  have hpower := Nat.log2_self_le hzero
  rcases Nat.lt_or_ge ticks (2 ^ num.log2) with hlt | hge
  · -- a power of two lies between the double and the number
    refine Nat.le_trans (Nat.le_of_lt hlt) (le_roundTicks_of_spacing_dvd ?_ hpower)
    exact Nat.pow_dvd_pow 2 (Nat.sub_le _ _)
  · have hlog : ticks.log2 = num.log2 := by
      have hpos : ticks ≠ 0 := Nat.ne_of_gt (Nat.lt_of_lt_of_le (Nat.two_pow_pos _) hge)
      refine (Nat.log2_eq_iff hpos).mpr ⟨hge, Nat.lt_of_le_of_lt hle Nat.lt_log2_self⟩
    refine le_roundTicks_of_spacing_dvd ?_ hle
    rwa [spacing, ← hlog]

/-! ## Whole numbers -/

/-- The double is finite and stands at the whole number; both zeros stand at zero. -/
inductive IsInt : Double → Int → Prop
  | finite {negative : Bool} {magnitude : Magnitude} {k : Int}
      (h : signedTicks negative magnitude = k * unit) : IsInt (.finite negative magnitude) k

theorem IsInt.position?_eq (h : n.IsInt k) : n.position? = some (k * unit) := by
  cases h with
  | finite h => exact congrArg some h

-- The exponents are generalized so that no power is evaluated.
theorem limit_eq : limit = Nat.pow 2 1024 * unit := by
  have hsum : 2098 = 1024 + 1074 := rfl
  unfold limit unit
  rw [hsum]
  generalize 1024 = exponent
  generalize 1074 = exponent'
  exact Nat.pow_add 2 exponent exponent'

theorem natAbs_mul_unit (k : Int) : (k * unit).natAbs = k.natAbs * unit := by
  rw [Int.natAbs_mul, Int.natAbs_natCast]

theorem mul_unit_lt_limit {size : Nat} (h : size ≤ Nat.pow 2 53) : size * unit < limit := by
  have hexponent : 53 < 1024 := by decide
  rw [limit_eq]
  generalize 1024 = exponent at hexponent
  have hpow : Nat.pow 2 53 < Nat.pow 2 exponent := Nat.pow_lt_pow_right Nat.one_lt_two hexponent
  exact Nat.mul_lt_mul_of_pos_right (Nat.lt_of_le_of_lt h hpow) unit_pos

theorem spacing_dvd_mul_unit {size : Nat} (h : size ≤ Nat.pow 2 53) :
    spacing (size * unit) ∣ size * unit := by
  unfold unit
  generalize 1074 = exponent
  exact spacing_dvd_mul_two_pow h exponent

theorem isInt_ofTicks (negative : Bool) (h : k.natAbs ≤ Nat.pow 2 53) :
    (ofTicks negative (k * unit)).IsInt k := by
  have hlt : (k * unit).natAbs < limit := by
    rw [natAbs_mul_unit]
    exact mul_unit_lt_limit h
  have hdvd : spacing (k * unit).natAbs ∣ (k * unit).natAbs := by
    rw [natAbs_mul_unit]
    exact spacing_dvd_mul_unit h
  obtain ⟨negative', magnitude, heq, hticks⟩ := exists_ofTicks_eq negative hlt hdvd
  rw [heq]
  exact .finite hticks

/-- The whole numbers of 53 bits are doubles. -/
theorem isInt_ofInt (h : k.natAbs ≤ Nat.pow 2 53) : (ofInt k).IsInt k := by
  rw [ofInt]
  exact isInt_ofTicks false h

/-- Both zeros stand at zero. -/
theorem isInt_zero (negative : Bool) : (zero negative).IsInt 0 := by
  have hsize : (0 : Int).natAbs ≤ Nat.pow 2 53 := Nat.zero_le _
  have h := isInt_ofTicks negative hsize
  rwa [Int.zero_mul] at h

theorem fdiv_half {unit : Int} (hunit : 0 < unit) (k : Int) :
    Int.fdiv (2 * (k * unit) + unit) (2 * unit) = k := by
  have hhalf : unit / (2 * unit) = 0 := Int.ediv_eq_zero_of_lt (by omega) (by omega)
  have hsum : 2 * (k * unit) + unit = unit + 2 * unit * k := by
    rw [Int.add_comm, Int.mul_assoc, Int.mul_comm k]
  rw [Int.fdiv_eq_ediv_of_nonneg _ (by omega), hsum, Int.add_mul_ediv_left _ _ (by omega), hhalf,
    Int.zero_add]

theorem IsInt.round_eq (h : n.IsInt k) : n.round = n := by
  cases h with
  | @finite negative magnitude k h =>
      have hround := fdiv_half (Int.natCast_pos.mpr unit_pos) k
      rw [← h] at hround
      rw [round, hround, ← h, ofTicks_signedTicks]

/-- A sum of whole numbers is exact as long as it keeps to 53 bits. -/
theorem IsInt.add (ha : a.IsInt j) (hb : b.IsInt k) (h : (j + k).natAbs ≤ Nat.pow 2 53) :
    (a + b).IsInt (j + k) := by
  cases ha with
  | finite ha =>
      cases hb with
      | finite hb =>
          show (Double.add _ _).IsInt (j + k)
          rw [Double.add, ha, hb, ← Int.add_mul]
          exact isInt_ofTicks _ h

/-! ## Comparing with natural numbers -/

/-- A natural number of any size stands on the same side of a whole number of 53 bits as its
double does. -/
theorem exists_position?_ofNat (size : Nat) :
    ∃ place, (ofNat size).position? = some place ∧
      ∀ k : Int, k.natAbs ≤ Nat.pow 2 53 → (k * unit ≤ place ↔ k ≤ size) := by
  refine ⟨_, by rw [ofNat_eq]; exact position?_ofRatio _ _, fun k hk => ?_⟩
  have hunit : (0 : Int) < unit := Int.natCast_pos.mpr unit_pos
  constructor
  · intro hle
    refine Int.not_lt.mp fun hlt => ?_
    -- a natural number below one of 53 bits is exact itself
    have hsize : size ≤ Nat.pow 2 53 := by omega
    have hplace : min (roundTicks (size * unit) 1) limit ≤ size * unit := by
      rw [roundTicks_one (spacing_dvd_mul_unit hsize)]
      exact Nat.min_le_left _ _
    have hcast : k * unit ≤ size * unit := by
      rw [← Int.natCast_mul]
      exact Int.le_trans hle (Int.ofNat_le.mpr hplace)
    exact Int.not_le.mpr hlt (Int.le_of_mul_le_mul_right hcast hunit)
  · intro hle
    rcases Int.le_total k 0 with hneg | hpos
    · exact Int.le_trans (Int.mul_nonpos_of_nonpos_of_nonneg hneg (Int.le_of_lt hunit))
        (Int.natCast_nonneg _)
    · obtain ⟨whole, rfl⟩ := Int.eq_ofNat_of_zero_le hpos
      rw [Int.natAbs_natCast] at hk
      rw [← Int.natCast_mul]
      refine Int.ofNat_le.mpr (Nat.le_min.mpr ⟨?_, Nat.le_of_lt (mul_unit_lt_limit hk)⟩)
      exact le_roundTicks (spacing_dvd_mul_unit hk)
        (Nat.mul_le_mul_right _ (Int.ofNat_le.mp hle))

theorem IsInt.lessOrEqual_ofNat (h : n.IsInt k) (hk : k.natAbs ≤ Nat.pow 2 53) (size : Nat) :
    n.lessOrEqual (ofNat size) = decide (k ≤ size) := by
  obtain ⟨place, hplace, hside⟩ := exists_position?_ofNat size
  rw [lessOrEqual, h.position?_eq, hplace]
  exact decide_eq_decide.mpr (hside k hk)

theorem IsInt.ofNat_lessThan (h : n.IsInt k) (hk : k.natAbs ≤ Nat.pow 2 53) (size : Nat) :
    (ofNat size).lessThan n = decide (size < k) := by
  obtain ⟨place, hplace, hside⟩ := exists_position?_ofNat size
  have hside := not_congr (hside k hk)
  rw [Int.not_le, Int.not_le] at hside
  rw [lessThan, h.position?_eq, hplace]
  exact decide_eq_decide.mpr hside

end XPathTree.Double
