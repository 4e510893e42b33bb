import AmountPad.Proofs.Amount.RoundTrip
import AmountPad.Proofs.Binary64.Nearest

/-!
# How near a value is to its text

The text of a value is within half a place of the value, and the value that is
read back is within half a place of the text.  The two are less than a place
apart, since a whole place is no whole number of units.

The value that is read back is the value itself when the text is exact, and also
when doubles are more than a place apart, which they are above `2 ^ 19`.
-/

namespace AmountPad

namespace Binary64

/-! ## Doubles near to each other -/

section Spacing

variable {bits other scale number : Nat}

/-- A double above the first one of a binade is a spacing apart from all others. -/
theorem units_eq_of_dist_lt {step : Nat} (above : perBinade * 2 ^ step < units bits)
    (near : Nat.dist (units other) (units bits) < 2 ^ step) : units other = units bits := by
  rcases units_le_or_dvd bits step with below | ⟨significand, unitsEq⟩
  · exact absurd above (Nat.not_lt_of_le below)
  · rw [unitsEq] at above near ⊢
    have larger : perBinade + 1 ≤ significand := by
      rw [Nat.mul_comm perBinade] at above
      exact Nat.lt_of_mul_lt_mul_left above
    rcases units_le_or_dvd other step with below | ⟨otherSignificand, otherEq⟩
    · -- a whole spacing lies between a lower double and this one
      have apart := Nat.mul_le_mul_left (2 ^ step) larger
      rw [Nat.mul_add, Nat.mul_one, Nat.mul_comm _ perBinade] at apart
      simp only [Nat.dist] at near
      omega
    · rw [otherEq, Nat.dist_mul_left] at near
      have same : Nat.dist otherSignificand significand = 0 :=
        Nat.eq_zero_of_not_pos fun apart =>
          Nat.not_lt_of_le (Nat.le_mul_of_pos_right _ apart) near
      rw [otherEq, Nat.eq_of_dist_eq_zero same]

/-- The double nearest to a rounded double is no farther from it than one part. -/
theorem mul_dist_units_nearestBits_le (positive : 0 < scale)
    (roundedEq : roundHalfEven (units bits * scale) unitsPerOne = number) :
    scale * Nat.dist (units (nearestBits number scale)) (units bits) ≤ unitsPerOne := by
  have near := (roundHalfEven_units_eq_iff.mp roundedEq).1
  have nearest := dist_nearestBits_le positive number bits
  have between := mul_dist_le scale (units (nearestBits number scale)) (units bits)
    (number * unitsPerOne)
  omega

/-- A double that is a whole number of parts is nearest to itself. -/
theorem units_nearestBits_of_whole (positive : 0 < scale)
    (roundedEq : roundHalfEven (units bits * scale) unitsPerOne = number) {count : Nat}
    (whole : units bits * scale = count * unitsPerOne) :
    units (nearestBits number scale) = units bits := by
  rw [whole, roundHalfEven_mul unitsPerOne_pos] at roundedEq
  subst count
  have nearest := dist_nearestBits_le positive number bits
  rw [Nat.mul_comm scale (units bits), whole, Nat.dist_self, Nat.le_zero] at nearest
  have scaled := Nat.eq_of_dist_eq_zero nearest
  rw [← whole, Nat.mul_comm (units bits)] at scaled
  exact Nat.eq_of_mul_eq_mul_left positive scaled

/-- A large double is nearest to its rounding, if its spacing is more than a part
and the first double of its binade is a whole number of ones. -/
theorem units_nearestBits_of_large (positive : 0 < scale)
    (roundedEq : roundHalfEven (units bits * scale) unitsPerOne = number) {step ones : Nat}
    (spaced : unitsPerOne < scale * 2 ^ step) (first : perBinade * 2 ^ step = ones * unitsPerOne)
    (large : ones * unitsPerOne ≤ units bits) :
    units (nearestBits number scale) = units bits := by
  rcases Nat.lt_or_eq_of_le large with above | isFirst
  · rw [← first] at above
    apply units_eq_of_dist_lt above
    have close := mul_dist_units_nearestBits_le positive roundedEq
    exact Nat.lt_of_mul_lt_mul_left (Nat.lt_of_le_of_lt close spaced)
  · have whole : units bits * scale = ones * scale * unitsPerOne := by
      rw [← isFirst, Nat.mul_right_comm]
    exact units_nearestBits_of_whole positive roundedEq whole

end Spacing

end Binary64

namespace Amount

open Binary64

variable {x y : Float}

/-- The sign is kept, except that a zero has none. -/
theorem IsReadBack.sign_of_magnitude (readBack : IsReadBack x y)
    (nonzero : Binary64.magnitude y ≠ 0) : isNegative y = isNegative x := by
  apply readBack.sign
  intro zero
  have magnitudeEq := readBack.magnitude
  rw [zero, nearestBits_zero] at magnitudeEq
  exact nonzero magnitudeEq

/-- The value that is read back is less than a place away. -/
theorem IsReadBack.abs_toRat_sub_lt (readBack : IsReadBack x y) :
    |toRat y - toRat x| < 1 / 10 ^ 10 := by
  have close := mul_dist_units_nearestBits_le pow_plainPlaces_pos
    (rfl : _ = rounded plainPlaces x)
  have noMultiple : ¬ 10 ^ plainPlaces ∣ unitsPerOne := by decide +kernel
  have strict := Nat.lt_of_le_of_ne close fun equal =>
    noMultiple (Dvd.intro _ equal)
  rw [← readBack.magnitude] at strict
  have scaled : Nat.dist (Binary64.magnitude y) (Binary64.magnitude x) * 10 ^ 10 <
      1 * unitsPerOne := by
    rw [Nat.mul_comm, Nat.one_mul]
    exact strict
  rw [Binary64.abs_toRat_sub readBack.sign_of_magnitude,
    div_lt_div_iff₀ unitsPerOne_pos_rat (by positivity)]
  exact_mod_cast scaled

/-- The value that is read back is as large as the value if it has the same
magnitude. -/
theorem IsReadBack.toRat_eq (readBack : IsReadBack x y)
    (same : Binary64.magnitude y = Binary64.magnitude x) : toRat y = toRat x := by
  have apart := Binary64.abs_toRat_sub readBack.sign_of_magnitude
  rw [same, Nat.dist_self, Nat.cast_zero, zero_div, abs_eq_zero, sub_eq_zero] at apart
  exact apart

/-- A value of at least `2 ^ 19` is read back. -/
theorem IsReadBack.toRat_eq_of_large (readBack : IsReadBack x y)
    (large : 2 ^ 19 ≤ |toRat x|) : toRat y = toRat x := by
  rw [abs_toRat, le_div_iff₀ unitsPerOne_pos_rat] at large
  have largeUnits : 2 ^ 19 * unitsPerOne ≤ Binary64.magnitude x := by
    exact_mod_cast large
  have spaced : unitsPerOne < 10 ^ plainPlaces * 2 ^ 1041 := by decide +kernel
  have first : perBinade * 2 ^ 1041 = 2 ^ 19 * unitsPerOne := by decide +kernel
  apply readBack.toRat_eq
  rw [readBack.magnitude]
  exact units_nearestBits_of_large pow_plainPlaces_pos rfl spaced first largeUnits

/-- A value with no more than ten places is read back. -/
theorem IsReadBack.toRat_eq_of_whole (readBack : IsReadBack x y) {number : Int}
    (whole : toRat x = number / 10 ^ 10) : toRat y = toRat x := by
  have wholeUnits : Binary64.magnitude x * 10 ^ 10 = number.natAbs * unitsPerOne := by
    have absEq := congrArg abs whole
    have placesPositive : (0 : Rat) < 10 ^ 10 := by positivity
    rw [abs_toRat, abs_div, abs_of_pos placesPositive, ← Int.cast_abs, ← Int.natCast_natAbs,
      Int.cast_natCast, div_eq_div_iff unitsPerOne_pos_rat.ne' placesPositive.ne'] at absEq
    exact_mod_cast absEq
  apply readBack.toRat_eq
  rw [readBack.magnitude]
  exact units_nearestBits_of_whole pow_plainPlaces_pos rfl wholeUnits

end Amount

end AmountPad
