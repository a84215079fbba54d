import XPathTree.Double.Basic

/-!
# Numeric equality

Doubles stand at different places of the number line, except for the two zeros. So a number
that equals a nonzero one is that number, and the positive whole numbers are nonzero however
they are rounded.
-/

namespace XPathTree.Double

-- The exponents are generalized so that no power is evaluated.
theorem limit_pos : 0 < limit := by
  unfold limit
  generalize 2098 = exponent
  exact Nat.two_pow_pos exponent

theorem unit_pos : 0 < unit := by
  unfold unit
  generalize 1074 = exponent
  exact Nat.two_pow_pos exponent

/-- A signed size away from zero tells sign and size. -/
theorem signed_inj {negative negative' : Bool} {size size' : Nat} {place : Int}
    (hplace : place ≠ 0) (h : (if negative then -size else size : Int) = place)
    (h' : (if negative' then -size' else size' : Int) = place) :
    negative = negative' ∧ size = size' := by
  cases negative <;> cases negative' <;> simp at h h' ⊢ <;> omega

/-- Away from zero, no two doubles stand at one place. -/
theorem position?_inj {a b : Double} {place : Int} (hplace : place ≠ 0)
    (ha : a.position? = some place) (hb : b.position? = some place) : a = b := by
  match a, b with
  | .nan, _ => cases ha
  | _, .nan => cases hb
  | .infinity _, .infinity _ =>
      obtain ⟨rfl, _⟩ := signed_inj hplace (Option.some.inj ha) (Option.some.inj hb)
      rfl
  | .infinity _, .finite _ magnitude =>
      have hsize := (signed_inj hplace (Option.some.inj ha) (Option.some.inj hb)).2
      exact absurd hsize (Nat.ne_of_gt magnitude.lt_limit)
  | .finite _ magnitude, .infinity _ =>
      have hsize := (signed_inj hplace (Option.some.inj ha) (Option.some.inj hb)).2
      exact absurd hsize (Nat.ne_of_lt magnitude.lt_limit)
  | .finite _ ⟨_, _, _⟩, .finite _ ⟨_, _, _⟩ =>
      obtain ⟨rfl, hticks⟩ := signed_inj hplace (Option.some.inj ha) (Option.some.inj hb)
      dsimp only at hticks
      subst hticks
      rfl

/-- To equal a nonzero number is to be that number. -/
theorem equals_iff {a b : Double} (hb : b.isNonzero = true) : a.equals b = true ↔ a = b := by
  unfold isNonzero at hb
  unfold equals
  cases hplaceb : b.position? with
  | none => rw [hplaceb] at hb; cases hb
  | some place =>
      rw [hplaceb] at hb
      cases hplacea : a.position? with
      | none =>
          refine iff_of_false Bool.false_ne_true ?_
          rintro rfl
          rw [hplacea] at hplaceb
          cases hplaceb
      | some place' =>
          refine ⟨fun h => ?_, ?_⟩
          · obtain rfl : place' = place := eq_of_beq h
            exact position?_inj (bne_iff_ne.mp hb) hplacea hplaceb
          · rintro rfl
            rw [hplacea] at hplaceb
            exact beq_iff_eq.mpr (Option.some.inj hplaceb)

/-! ## Whole numbers -/

theorem spacing_le {ticks : Nat} (h : 0 < ticks) : spacing ticks ≤ ticks :=
  Nat.le_trans (Nat.pow_le_pow_right Nat.two_pos (Nat.sub_le _ _)) (Nat.log2_self_le (by omega))

/-- Rounding does not take a size to zero. -/
theorem roundTicks_pos {ticks : Nat} (h : 0 < ticks) : 0 < roundTicks ticks 1 := by
  have hstep := spacing_pos (ticks / 1)
  unfold roundTicks
  refine Nat.mul_pos (Nat.lt_of_lt_of_le ?_ (div_le_roundDiv _ _)) hstep
  refine Nat.div_pos ?_ (by omega)
  rw [Nat.div_one, Nat.one_mul]
  exact spacing_le h

theorem ofNat_eq (size : Nat) : ofNat size = ofRatio false (size * unit) 1 := by
  have hcast : ((size : Int) * unit) = ((size * unit : Nat) : Int) := (Int.natCast_mul _ _).symm
  have hsign : (if ((size * unit : Nat) : Int) = 0 then false
      else decide (((size * unit : Nat) : Int) < 0)) = false := by
    generalize size * unit = ticks
    grind
  rw [ofNat, ofInt, ofTicks, hcast, hsign, Int.natAbs_natCast]

theorem position?_ofRatio (num den : Nat) :
    (ofRatio false num den).position? = some ↑(min (roundTicks num den) limit) := by
  unfold ofRatio
  split
  · next hlt => rw [Nat.min_eq_left (Nat.le_of_lt hlt)]; rfl
  · next hge => rw [Nat.min_eq_right (Nat.le_of_not_lt hge)]; rfl

theorem isNonzero_ofNat {n : Nat} (h : 0 < n) : (ofNat n).isNonzero = true := by
  have hpos : 0 < min (roundTicks (n * unit) 1) limit :=
    Nat.lt_min.mpr ⟨roundTicks_pos (Nat.mul_pos h unit_pos), limit_pos⟩
  rw [isNonzero, ofNat_eq, position?_ofRatio]
  exact bne_iff_ne.mpr (Int.natCast_ne_zero.mpr (Nat.ne_of_gt hpos))

end XPathTree.Double
