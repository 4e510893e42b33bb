import AmountPad.Binary64
import AmountPad.Proofs.Rounding
import Mathlib.Order.Monotone.Basic

/-!
# Counting through the doubles

The bits of a non-negative double are a number of binades and a significand.
Its units are the significand in the spacing of the binade, and the next double
is one such spacing larger.

The bits nearest to a quotient are those of no other double nearer to it, with
the doubles above the finite ones counted in.
-/

namespace AmountPad.Binary64

theorem unitsPerOne_pos : 0 < unitsPerOne := by
  decide +kernel

theorem perBinade_eq : perBinade = 2 ^ 52 := by
  decide

/-! ## Binades and significands -/

/-- Bits are counted by whole binades, and the significand fills the binade
except in the lowest one. -/
theorem exists_significand (bits : Nat) :
    ∃ step significand,
      bits = step * perBinade + significand ∧ significand < 2 * perBinade ∧
        (step = 0 ∨ perBinade ≤ significand) := by
  have division := Nat.div_add_mod bits perBinade
  have small : bits % perBinade < perBinade := Nat.mod_lt _ (by decide)
  rcases Nat.eq_zero_or_pos (bits / perBinade) with lowest | positive
  · rw [lowest, Nat.mul_zero, Nat.zero_add] at division
    exact ⟨0, bits, by simp, by omega, .inl rfl⟩
  · obtain ⟨step, stepEq⟩ := Nat.exists_eq_add_of_lt positive
    rw [Nat.zero_add] at stepEq
    refine ⟨step, perBinade + bits % perBinade, ?_, by omega, .inr (by omega)⟩
    rw [stepEq, Nat.mul_add, Nat.mul_comm perBinade step] at division
    omega

/-- The units are the significand in the spacing of the binade.  A significand
that has just left the binade may be counted with it. -/
theorem units_add {step significand : Nat} (small : significand ≤ 2 * perBinade)
    (fills : step = 0 ∨ perBinade ≤ significand) :
    units (step * perBinade + significand) = significand * 2 ^ step := by
  have positive : 0 < perBinade := by decide
  have twice : 2 * perBinade = perBinade + perBinade := Nat.two_mul _
  rcases Nat.lt_or_eq_of_le small with inside | carried
  · rcases fills with rfl | fills
    · rw [Nat.zero_mul, Nat.zero_add, units, if_pos inside, Nat.pow_zero, Nat.mul_one]
    · obtain ⟨rest, rfl⟩ := Nat.exists_eq_add_of_le fills
      have restSmall : rest < perBinade := by omega
      have bitsEq : step * perBinade + (perBinade + rest) =
          rest + (step + 1) * perBinade := by
        rw [Nat.add_mul, Nat.one_mul]
        omega
      rcases Nat.eq_zero_or_pos step with rfl | stepPositive
      · rw [Nat.zero_mul, Nat.zero_add, units, if_pos inside, Nat.pow_zero, Nat.mul_one]
      · have large : ¬ rest + (step + 1) * perBinade < 2 * perBinade := by
          have several : 2 * perBinade ≤ (step + 1) * perBinade :=
            Nat.mul_le_mul_right perBinade (Nat.succ_le_succ stepPositive)
          omega
        rw [bitsEq, units, if_neg large, Nat.add_mul_mod_self_right,
          Nat.mod_eq_of_lt restSmall, Nat.add_mul_div_right _ _ positive,
          Nat.div_eq_of_lt restSmall, Nat.zero_add, Nat.add_sub_cancel]
        rfl
  · subst carried
    have bitsEq : step * perBinade + 2 * perBinade = (step + 2) * perBinade := by
      rw [Nat.add_mul]
    have large : ¬ (step + 2) * perBinade < 2 * perBinade := by
      have several : 2 * perBinade ≤ (step + 2) * perBinade :=
        Nat.mul_le_mul_right perBinade (Nat.le_add_left 2 step)
      omega
    rw [bitsEq, units, if_neg large, Nat.mul_mod_left, Nat.mul_div_cancel _ positive,
      Nat.add_zero, Nat.add_sub_assoc (by decide)]
    rw [Nat.pow_eq, Nat.pow_succ, Nat.mul_comm 2 perBinade, Nat.mul_assoc,
      Nat.mul_comm (2 ^ step) 2]

/-- The next double is one spacing larger. -/
theorem exists_units_succ (bits : Nat) :
    ∃ step significand,
      bits = step * perBinade + significand ∧ significand < 2 * perBinade ∧
        units (bits + 1) = units bits + 2 ^ step := by
  obtain ⟨step, significand, rfl, small, fills⟩ := exists_significand bits
  have fillsNext : step = 0 ∨ perBinade ≤ significand + 1 :=
    fills.imp_right fun fills => Nat.le_succ_of_le fills
  have next : units (step * perBinade + significand + 1) =
      units (step * perBinade + significand) + 2 ^ step := by
    rw [Nat.add_assoc, units_add small.le fills, units_add small fillsNext,
      Nat.succ_mul]
  exact ⟨step, significand, rfl, small, next⟩

/-- Larger bits are larger doubles. -/
theorem units_strictMono : StrictMono units := by
  apply strictMono_nat_of_lt_succ
  intro bits
  obtain ⟨step, _, _, _, next⟩ := exists_units_succ bits
  rw [next]
  exact Nat.lt_add_of_pos_right (Nat.two_pow_pos step)

/-- Infinity is more than one away from the finite doubles. -/
theorem units_add_unitsPerOne_lt {bits above : Nat} (finite : bits < infinityBits)
    (tooLarge : infinityBits ≤ above) : units bits + unitsPerOne < units above := by
  have lastEq : infinityBits - 1 = 2045 * perBinade + (2 * perBinade - 1) := by decide
  have firstEq : infinityBits - 1 + 1 = infinityBits := by decide
  have next : units (infinityBits - 1 + 1) = units (infinityBits - 1) + 2 ^ 2045 := by
    have filled : 2045 = 0 ∨ perBinade ≤ 2 * perBinade - 1 := .inr (by decide)
    have carried : 2045 = 0 ∨ perBinade ≤ 2 * perBinade - 1 + 1 := .inr (by decide)
    rw [lastEq, Nat.add_assoc, units_add (by decide) filled,
      units_add (by decide) carried, Nat.succ_mul]
  have spacing : unitsPerOne < 2 ^ 2045 := by
    decide +kernel
  have below := units_strictMono.monotone (Nat.le_sub_one_of_lt finite)
  have higher := units_strictMono.monotone tooLarge
  rw [firstEq] at next
  omega

/-! ## The nearest double -/

section Nearest

variable {numerator denominator : Nat}

/-- The quotient of the binade that holds a quotient is a significand. -/
theorem significand_bounds (numerator denominator : Nat) {step : Nat}
    (stepEq : step = Nat.log2 (numerator / denominator) - 52) :
    numerator / (denominator * 2 ^ step) < 2 * perBinade ∧
      (step = 0 ∨ perBinade ≤ numerator / (denominator * 2 ^ step)) := by
  rw [← Nat.div_div_eq_div_mul, perBinade_eq]
  generalize numerator / denominator = quotient at stepEq ⊢
  constructor
  · have upper : quotient < 2 ^ (53 + step) :=
      Nat.lt_of_lt_of_le Nat.lt_log2_self
        (Nat.pow_le_pow_right (by decide) (by omega))
    rw [Nat.div_lt_iff_lt_mul (Nat.two_pow_pos step), ← Nat.pow_succ', ← Nat.pow_add]
    exact upper
  · rcases Nat.eq_zero_or_pos step with isZero | stepPositive
    · exact .inl isZero
    · have nonzero : quotient ≠ 0 := by
        rintro rfl
        simp at stepEq
        omega
      have logEq : Nat.log2 quotient = 52 + step := by omega
      have lower := Nat.log2_self_le nonzero
      rw [logEq, Nat.pow_add] at lower
      exact .inr ((Nat.le_div_iff_mul_le (Nat.two_pow_pos step)).mpr lower)

/-- The nearest bits are the rounded significand of the quotient's binade. -/
theorem exists_nearestBits (positive : 0 < denominator) (numerator : Nat) :
    ∃ step,
      nearestBits numerator denominator = step * perBinade +
          roundHalfEven (numerator * unitsPerOne) (denominator * 2 ^ step) ∧
        units (nearestBits numerator denominator) =
          roundHalfEven (numerator * unitsPerOne) (denominator * 2 ^ step) * 2 ^ step ∧
        (step = 0 ∨
          denominator * 2 ^ step * perBinade ≤ numerator * unitsPerOne) := by
  let scaled := numerator * unitsPerOne
  let step := Nat.log2 (scaled / denominator) - 52
  have bounds := significand_bounds scaled denominator (rfl : step = _)
  have rounded := roundHalfEven_bounds scaled (denominator * 2 ^ step)
  have stepPositive : 0 < denominator * 2 ^ step :=
    Nat.mul_pos positive (Nat.two_pow_pos step)
  refine ⟨step, rfl, ?_, ?_⟩
  · have small : roundHalfEven scaled (denominator * 2 ^ step) ≤ 2 * perBinade := by
      omega
    exact units_add small
      (bounds.2.imp_right fun fills => Nat.le_trans fills rounded.1)
  · refine bounds.2.imp_right fun fills => ?_
    rw [Nat.mul_comm]
    exact (Nat.le_div_iff_mul_le stepPositive).mp fills

/-- Scaling a quotient keeps its nearest double. -/
theorem nearestBits_mul_mul_right {scale : Nat} (positive : 0 < scale)
    (numerator denominator : Nat) :
    nearestBits (numerator * scale) (denominator * scale) =
      nearestBits numerator denominator := by
  simp only [nearestBits]
  rw [Nat.mul_right_comm numerator, Nat.mul_div_mul_right _ _ positive,
    Nat.mul_right_comm denominator, roundHalfEven_mul_mul_right positive]

/-- Doubles in lower binades are no larger than the first one of a binade, and
all others are whole spacings of it. -/
theorem units_le_or_dvd (bits step : Nat) :
    units bits ≤ perBinade * 2 ^ step ∨ 2 ^ step ∣ units bits := by
  obtain ⟨lower, significand, rfl, small, fills⟩ := exists_significand bits
  rw [units_add small.le fills]
  rcases Nat.lt_or_ge lower step with below | above
  · left
    have doubled : 2 * 2 ^ lower ≤ 2 ^ step := by
      rw [← Nat.pow_succ']
      exact Nat.pow_le_pow_right (by decide) below
    calc
      significand * 2 ^ lower ≤ 2 * perBinade * 2 ^ lower :=
        Nat.mul_le_mul_right _ small.le
      _ = perBinade * (2 * 2 ^ lower) := by ac_rfl
      _ ≤ perBinade * 2 ^ step := Nat.mul_le_mul_left _ doubled
  · right
    exact Dvd.dvd.mul_left (Nat.pow_dvd_pow 2 above) significand

/-- No double is nearer to the quotient than the one with the nearest bits. -/
theorem dist_nearestBits_le (positive : 0 < denominator) (numerator bits : Nat) :
    Nat.dist (denominator * units (nearestBits numerator denominator))
        (numerator * unitsPerOne) ≤
      Nat.dist (denominator * units bits) (numerator * unitsPerOne) := by
  obtain ⟨step, _, unitsEq, lowest⟩ := exists_nearestBits positive numerator
  have nearest := dist_roundHalfEven_le
    (Nat.mul_pos positive (Nat.two_pow_pos step)) (numerator * unitsPerOne)
  rw [unitsEq, Nat.mul_comm (roundHalfEven _ _), ← Nat.mul_assoc]
  rcases units_le_or_dvd bits step with below | ⟨significand, isMultiple⟩
  · rcases lowest with rfl | lowest
    · simpa using nearest (units bits)
    · -- the first double of the binade lies between this one and the quotient
      have first := nearest perBinade
      have scaledBelow := Nat.mul_le_mul_left denominator below
      rw [Nat.mul_comm perBinade, ← Nat.mul_assoc] at scaledBelow
      simp only [Nat.dist] at first ⊢
      omega
  · rw [isMultiple, ← Nat.mul_assoc]
    exact nearest significand

/-- The nearest bits are even if another double is equally near. -/
theorem nearestBits_even_of_equidistant (positive : 0 < denominator) {bits : Nat}
    (different : bits ≠ nearestBits numerator denominator)
    (equidistant : Nat.dist (denominator * units bits) (numerator * unitsPerOne) =
      Nat.dist (denominator * units (nearestBits numerator denominator))
        (numerator * unitsPerOne)) :
    nearestBits numerator denominator % 2 = 0 := by
  obtain ⟨step, bitsEq, unitsEq, lowest⟩ := exists_nearestBits positive numerator
  have stepPositive : 0 < denominator * 2 ^ step := Nat.mul_pos positive (Nat.two_pow_pos step)
  have differentUnits : units bits ≠ units (nearestBits numerator denominator) :=
    fun same => different (units_strictMono.injective same)
  have evenBinades : step * perBinade % 2 = 0 := by
    simp only [perBinade]
    omega
  rw [bitsEq, Nat.add_mod, evenBinades]
  rw [unitsEq] at equidistant differentUnits
  by_cases isMultiple : 2 ^ step ∣ units bits
  · obtain ⟨significand, multiple⟩ := isMultiple
    rw [multiple, ← Nat.mul_assoc, Nat.mul_comm (roundHalfEven _ _), ← Nat.mul_assoc]
      at equidistant
    have differentSignificand : significand ≠
        roundHalfEven (numerator * unitsPerOne) (denominator * 2 ^ step) := by
      rintro rfl
      exact differentUnits (multiple.trans (Nat.mul_comm _ _))
    have isEven := roundHalfEven_even_of_equidistant stepPositive differentSignificand equidistant
    omega
  · -- the first double of the binade lies between this one and the quotient
    have below := (units_le_or_dvd bits step).resolve_right isMultiple
    have notFirst : units bits ≠ perBinade * 2 ^ step := by
      intro isFirst
      exact isMultiple (isFirst ▸ Nat.dvd_mul_left _ _)
    have notLowest : step ≠ 0 := by
      rintro rfl
      exact isMultiple (one_dvd _)
    have first := dist_roundHalfEven_le stepPositive (numerator * unitsPerOne) perBinade
    have scaledBelow := Nat.mul_lt_mul_of_pos_left (Nat.lt_of_le_of_ne below notFirst) positive
    have fills := lowest.resolve_left notLowest
    rw [Nat.mul_comm perBinade, ← Nat.mul_assoc] at scaledBelow
    rw [Nat.mul_comm (roundHalfEven _ _), ← Nat.mul_assoc] at equidistant
    simp only [Nat.dist] at first equidistant
    omega

end Nearest

end AmountPad.Binary64
