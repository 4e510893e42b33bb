/-!
# Rounding a quotient to the nearest integer

Decimals become binary numbers and binary numbers become decimals by the same
rounding: the integer nearest to an exact quotient, and the even one of two
that are equally near.
-/

namespace AmountPad

/-- The integer nearest to `numerator / denominator`; a half goes to the even
neighbour. -/
def roundHalfEven (numerator denominator : Nat) : Nat :=
  let quotient := numerator / denominator
  let twice := 2 * (numerator % denominator)
  if twice < denominator then quotient
  else if denominator < twice then quotient + 1
  else quotient + quotient % 2

@[simp]
theorem roundHalfEven_zero (denominator : Nat) :
    roundHalfEven 0 denominator = 0 := by
  simp [roundHalfEven]

/-- A quotient that is an integer is not changed. -/
theorem roundHalfEven_mul {denominator : Nat} (positive : 0 < denominator)
    (value : Nat) :
    roundHalfEven (value * denominator) denominator = value := by
  simp [roundHalfEven, positive]

/-- The result lies between the quotient's floor and its successor. -/
theorem roundHalfEven_bounds (numerator denominator : Nat) :
    numerator / denominator ≤ roundHalfEven numerator denominator ∧
      roundHalfEven numerator denominator ≤ numerator / denominator + 1 := by
  simp only [roundHalfEven]
  split
  · omega
  · split <;> omega

/-- The result is within half a unit of the quotient. -/
theorem roundHalfEven_near {denominator : Nat} (positive : 0 < denominator)
    (numerator : Nat) :
    2 * numerator ≤
        2 * (denominator * roundHalfEven numerator denominator) + denominator ∧
      2 * (denominator * roundHalfEven numerator denominator) ≤
        2 * numerator + denominator := by
  have division := Nat.div_add_mod numerator denominator
  have small := Nat.mod_lt numerator positive
  simp only [roundHalfEven]
  split
  · omega
  · split
    · rw [Nat.mul_add, Nat.mul_one]
      omega
    · have parity := Nat.mod_two_eq_zero_or_one (numerator / denominator)
      rcases parity with even | odd
      · rw [even, Nat.add_zero]
        omega
      · rw [odd, Nat.mul_add, Nat.mul_one]
        omega

/-- A quotient halfway between two integers goes to the even one. -/
theorem roundHalfEven_even_of_tie {numerator denominator : Nat}
    (tie : 2 * (numerator % denominator) = denominator) :
    roundHalfEven numerator denominator % 2 = 0 := by
  simp only [roundHalfEven, tie, Nat.lt_irrefl, if_false]
  omega

end AmountPad
