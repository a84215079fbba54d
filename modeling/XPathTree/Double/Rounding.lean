/-!
# Rounding to binary precision

Magnitudes are counted in *ticks*, the distance 2^-1074 between the two smallest
doubles. A number of ticks is a double's when it is a multiple of the spacing of
doubles at its size: 53 significant bits, or any number of ticks below 2^53.

* `roundDiv` — a quotient to the nearest whole number, halves to the even one;
* `roundTicks` — a quotient to the nearest multiple of the spacing at its size;
* `spacing_dvd_roundTicks` — what `roundTicks` gives is a double's magnitude.
-/

namespace XPathTree.Double

/-- The whole number nearest to `num / den`; halfway it is the even neighbour. -/
def roundDiv (num den : Nat) : Nat :=
  let floor := num / den
  let twice := 2 * (num % den)
  if twice < den then floor
  else if den < twice then floor + 1
  else floor + floor % 2

theorem roundDiv_le (num den : Nat) : roundDiv num den ≤ num / den + 1 := by
  simp only [roundDiv]
  split
  · omega
  · split <;> omega

theorem div_le_roundDiv (num den : Nat) : num / den ≤ roundDiv num den := by
  simp only [roundDiv]
  split
  · omega
  · split <;> omega

/-- A whole quotient is not changed by rounding. -/
theorem roundDiv_mul_left {den : Nat} (hden : 0 < den) (n : Nat) :
    roundDiv (n * den) den = n := by
  simp [roundDiv, hden]

-- Powers are written `Nat.pow`, since what `^` stands for depends on the imports.

/-- The ticks in the number one. -/
def unit : Nat := Nat.pow 2 1074

/-- The first power of two, in ticks, that is too large for a double. -/
def limit : Nat := Nat.pow 2 2098

/-- The distance between neighbouring doubles at a size of `ticks`: it leaves 53
significant bits, and is one tick at the least. -/
def spacing (ticks : Nat) : Nat := Nat.pow 2 (ticks.log2 - 52)

theorem spacing_pos (ticks : Nat) : 0 < spacing ticks := Nat.two_pow_pos _

/-- The quotient `num / den` to the nearest multiple of the spacing at its size,
halves to the even multiple. -/
def roundTicks (num den : Nat) : Nat :=
  let step := spacing (num / den)
  roundDiv num (den * step) * step

/-- Numbers of at most 53 bits, times a power of two, keep to their spacing. -/
theorem spacing_dvd_mul_two_pow {significand : Nat} (hle : significand ≤ Nat.pow 2 53)
    (shift : Nat) :
    spacing (significand * Nat.pow 2 shift) ∣ significand * Nat.pow 2 shift := by
  rw [Nat.pow_eq] at hle ⊢
  by_cases hzero : significand = 0
  · simp [hzero]
  have hne : significand * 2 ^ shift ≠ 0 :=
    Nat.mul_ne_zero hzero (Nat.ne_of_gt (Nat.two_pow_pos shift))
  rcases Nat.lt_or_eq_of_le hle with hlt | rfl
  · have hlog : (significand * 2 ^ shift).log2 < 53 + shift := by
      rw [Nat.log2_lt hne, Nat.pow_add]
      exact Nat.mul_lt_mul_of_pos_right hlt (Nat.two_pow_pos shift)
    exact Nat.dvd_trans (Nat.pow_dvd_pow 2 (by omega)) (Nat.dvd_mul_left _ _)
  · rw [spacing, Nat.pow_eq, ← Nat.pow_add, Nat.log2_two_pow]
    exact Nat.pow_dvd_pow 2 (by omega)

theorem spacing_dvd_roundTicks (num den : Nat) :
    spacing (roundTicks num den) ∣ roundTicks num den := by
  have hbits : num / (den * spacing (num / den)) < 2 ^ 53 := by
    rw [← Nat.div_div_eq_div_mul, Nat.div_lt_iff_lt_mul (spacing_pos _), spacing,
      Nat.pow_eq, ← Nat.pow_add]
    exact Nat.lt_of_lt_of_le Nat.lt_log2_self
      (Nat.pow_le_pow_right (by decide) (by omega))
  exact spacing_dvd_mul_two_pow
    (Nat.le_trans (roundDiv_le _ _) (Nat.succ_le_of_lt hbits)) _

/-- A multiple of the spacing at its own size is not changed by rounding. -/
theorem roundTicks_one {ticks : Nat} (h : spacing ticks ∣ ticks) :
    roundTicks ticks 1 = ticks := by
  obtain ⟨n, hn⟩ := h
  have hdiv : roundDiv ticks (spacing ticks) = n := by
    conv => lhs; rw [hn]; arg 2; rw [← hn]
    rw [Nat.mul_comm]
    exact roundDiv_mul_left (spacing_pos _) n
  simp only [roundTicks, Nat.div_one, Nat.one_mul, hdiv]
  rw [Nat.mul_comm]
  exact hn.symm

end XPathTree.Double
