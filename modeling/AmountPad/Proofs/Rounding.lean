import AmountPad.Rounding
import Mathlib.Data.Nat.Dist

/-!
# What rounding to the nearest integer means

The rounded quotient is the only integer within half a unit of the quotient that
is even if it is exactly half a unit away.  No integer is nearer, and scaling a
quotient does not change it.
-/

namespace AmountPad

variable {numerator denominator : Nat}

/-- The quotient is within half a unit. -/
theorem dist_roundHalfEven_near (positive : 0 < denominator) (numerator : Nat) :
    2 * Nat.dist (denominator * roundHalfEven numerator denominator) numerator ≤
      denominator := by
  have near := roundHalfEven_near positive numerator
  simp only [Nat.dist]
  omega

/-- A quotient that is half a unit away lies between two integers. -/
theorem mod_of_dist_eq_half (positive : 0 < denominator)
    (tie : 2 * Nat.dist (denominator * roundHalfEven numerator denominator) numerator =
      denominator) : 2 * (numerator % denominator) = denominator := by
  have division := Nat.div_add_mod numerator denominator
  have small := Nat.mod_lt numerator positive
  have bounds := roundHalfEven_bounds numerator denominator
  rcases Nat.le_and_le_add_one_iff.mp bounds with isFloor | isNext
  · rw [isFloor] at tie
    simp only [Nat.dist] at tie
    omega
  · rw [isNext, Nat.mul_add, Nat.mul_one] at tie
    simp only [Nat.dist] at tie
    omega

/-- Two multiples of a unit are no farther from each other than both are from a
third number. -/
theorem mul_dist_le (unit first second third : Nat) :
    unit * Nat.dist first second ≤
      Nat.dist (unit * first) third + Nat.dist (unit * second) third := by
  rw [← Nat.dist_mul_left, Nat.dist_comm (unit * second) third]
  exact Nat.dist.triangle_inequality _ third _

/-- The rounded quotient is told by its distance and, at a tie, by its parity. -/
theorem roundHalfEven_eq_iff (positive : 0 < denominator) {value : Nat} :
    roundHalfEven numerator denominator = value ↔
      2 * Nat.dist (denominator * value) numerator ≤ denominator ∧
        (2 * Nat.dist (denominator * value) numerator = denominator →
          value % 2 = 0) := by
  have near := dist_roundHalfEven_near positive numerator
  constructor
  · rintro rfl
    exact ⟨near, fun tie =>
      roundHalfEven_even_of_tie (mod_of_dist_eq_half positive tie)⟩
  · rintro ⟨valueNear, even⟩
    by_contra different
    -- both integers are half a unit away, so both are even, and they are neighbours
    have apart := Nat.dist_pos_of_ne different
    have between := mul_dist_le denominator
      (roundHalfEven numerator denominator) value numerator
    have unitApart := Nat.mul_le_mul_left denominator apart
    have roundedTie :
        2 * Nat.dist (denominator * roundHalfEven numerator denominator) numerator =
          denominator := by
      omega
    have roundedEven :=
      roundHalfEven_even_of_tie (mod_of_dist_eq_half positive roundedTie)
    have valueEven := even (by omega)
    have neighbours : Nat.dist (roundHalfEven numerator denominator) value ≤ 1 :=
      Nat.le_of_mul_le_mul_left (by omega) positive
    simp only [Nat.dist] at neighbours
    omega

/-- No integer is nearer than the rounded quotient. -/
theorem dist_roundHalfEven_le (positive : 0 < denominator) (numerator value : Nat) :
    Nat.dist (denominator * roundHalfEven numerator denominator) numerator ≤
      Nat.dist (denominator * value) numerator := by
  by_cases same : roundHalfEven numerator denominator = value
  · rw [same]
  · have near := dist_roundHalfEven_near positive numerator
    have between := mul_dist_le denominator
      (roundHalfEven numerator denominator) value numerator
    have unitApart := Nat.mul_le_mul_left denominator (Nat.dist_pos_of_ne same)
    omega

/-- The rounded quotient is even if another integer is equally near. -/
theorem roundHalfEven_even_of_equidistant (positive : 0 < denominator) {value : Nat}
    (different : value ≠ roundHalfEven numerator denominator)
    (equidistant : Nat.dist (denominator * value) numerator =
      Nat.dist (denominator * roundHalfEven numerator denominator) numerator) :
    roundHalfEven numerator denominator % 2 = 0 := by
  have near := dist_roundHalfEven_near positive numerator
  have between := mul_dist_le denominator
    value (roundHalfEven numerator denominator) numerator
  have unitApart := Nat.mul_le_mul_left denominator (Nat.dist_pos_of_ne different)
  exact roundHalfEven_even_of_tie (mod_of_dist_eq_half positive (by omega))

/-- Scaling keeps the quotient. -/
theorem roundHalfEven_mul_mul_right {scale : Nat} (positive : 0 < scale)
    (numerator denominator : Nat) :
    roundHalfEven (numerator * scale) (denominator * scale) =
      roundHalfEven numerator denominator := by
  simp only [roundHalfEven, Nat.mul_div_mul_right _ _ positive, Nat.mul_mod_mul_right,
    ← Nat.mul_assoc, Nat.mul_lt_mul_right positive]

end AmountPad
