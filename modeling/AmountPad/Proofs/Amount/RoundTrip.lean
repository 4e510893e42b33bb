import AmountPad.Proofs.Amount.Spelling
import AmountPad.Proofs.Binary64.Bits
import AmountPad.Proofs.Binary64.Grid
import AmountPad.Proofs.Calculation.Tree

/-!
# Reading a value back from its text

The plain form of a value denotes the value's rounding.  Reading it gives the
double nearest to that rounding, which is no farther from it than the value
itself.  So the double that is read rounds to the same decimal again, and has
the same text.
-/

namespace AmountPad

/-! ## Rounding to decimals and back -/

namespace Binary64

variable {bits scale number : Nat}

/-- A double is rounded to the number of parts that is within half a part, or to
the even one of two. -/
theorem roundHalfEven_units_eq_iff :
    roundHalfEven (units bits * scale) unitsPerOne = number ↔
      2 * Nat.dist (scale * units bits) (number * unitsPerOne) ≤ unitsPerOne ∧
        (2 * Nat.dist (scale * units bits) (number * unitsPerOne) = unitsPerOne →
          number % 2 = 0) := by
  rw [roundHalfEven_eq_iff unitsPerOne_pos, Nat.dist_comm, Nat.mul_comm unitsPerOne,
    Nat.mul_comm (units bits)]

/-- The double nearest to a rounded double is rounded to the same number. -/
theorem roundHalfEven_units_nearestBits (positive : 0 < scale)
    (roundedEq : roundHalfEven (units bits * scale) unitsPerOne = number) :
    roundHalfEven (units (nearestBits number scale) * scale) unitsPerOne = number := by
  have nearest := dist_nearestBits_le positive number bits
  rw [roundHalfEven_units_eq_iff] at roundedEq ⊢
  rcases roundedEq with ⟨near, even⟩
  constructor
  · omega
  · intro tie
    exact even (by omega)

/-- The double nearest to a rounded finite double is finite. -/
theorem nearestBits_lt_infinityBits (finite : bits < infinityBits) (positive : 0 < scale)
    (roundedEq : roundHalfEven (units bits * scale) unitsPerOne = number) :
    nearestBits number scale < infinityBits := by
  by_contra tooLarge
  have gap := units_add_unitsPerOne_lt finite (Nat.le_of_not_lt tooLarge)
  have nearest := dist_nearestBits_le positive number bits
  have near := (roundHalfEven_units_eq_iff.mp roundedEq).1
  have between := mul_dist_le scale (units (nearestBits number scale)) (units bits)
    (number * unitsPerOne)
  have scaled := Nat.le_mul_of_pos_left
    (Nat.dist (units (nearestBits number scale)) (units bits)) positive
  have apart : unitsPerOne < Nat.dist (units (nearestBits number scale)) (units bits) := by
    rw [Nat.dist_eq_sub_of_le_right (by omega)]
    omega
  omega

end Binary64

namespace Amount

open Decimal

theorem pow_plainPlaces_pos : 0 < 10 ^ plainPlaces :=
  Nat.pow_pos Nat.succ_pos'

/-- The trimmed form of a decimal is read as the double nearest to the decimal. -/
theorem toFloat?_trimmedText (places number : Nat) :
    (ofLiteral (trimmedText places number)).toFloat? =
      Binary64.nearest? number (10 ^ places) := by
  have denotes := ofLiteral_trimmedText places number
  generalize ofLiteral (trimmedText places number) = decimal at denotes ⊢
  have bitsEq : Binary64.nearestBits decimal.coefficient (10 ^ decimal.places) =
      Binary64.nearestBits number (10 ^ places) := by
    rw [← Binary64.nearestBits_mul_mul_right (Nat.pow_pos Nat.succ_pos' : 0 < 10 ^ places),
      denotes, Nat.mul_comm (10 ^ decimal.places),
      Binary64.nearestBits_mul_mul_right (Nat.pow_pos Nat.succ_pos')]
  simp only [toFloat?, Binary64.nearest?, Nat.pow_eq, bitsEq]

/-- A sign in front of a literal changes the sign of its value. -/
theorem exists_spells_signed {literal : Text} {value : Float} (isLiteral : IsLiteral literal)
    (valueEq : (ofLiteral literal).toFloat? = some value) (negative : Bool) :
    ∃ (expression : Expression) (result : Float),
      expression.IsFactor ∧ Spells (signed negative literal) expression ∧
        expression.value = .ok result ∧ result.isFinite = true ∧
        Binary64.isNegative result = negative ∧
        Binary64.magnitude result = Binary64.magnitude value := by
  obtain ⟨finite, positive, _⟩ := Binary64.nearest?_spec valueEq
  have spells := Spells.number isLiteral valueEq
  cases negative with
  | false => exact ⟨.number value, value, .number value, spells, rfl, finite, positive, rfl⟩
  | true =>
      have negated := (Binary64.toBits_neg finite).2
      rw [positive] at negated
      exact ⟨.negate (.number value), -value, .negate (.number value), .negate spells, rfl,
        Binary64.isFinite_neg finite, negated, Binary64.magnitude_neg finite⟩

/-- A value is the double nearest to the rounding of another value, with the sign
of the other value unless that rounds to zero. -/
structure IsReadBack (x y : Float) : Prop where
  isFinite : y.isFinite = true
  magnitude : Binary64.magnitude y =
    Binary64.units (Binary64.nearestBits (rounded plainPlaces x) (10 ^ plainPlaces))
  sign : rounded plainPlaces x ≠ 0 → Binary64.isNegative y = Binary64.isNegative x

/-- The plain form of a finite value is read as the double nearest to its
rounding. -/
theorem exists_calculate_plainText {text : Text} {x : Float} (finite : x.isFinite = true)
    (plainEq : plain text = plainText x) :
    ∃ y : Float, calculate text = .ok y ∧ IsReadBack x y := by
  obtain ⟨negative, textEq, signEq⟩ := exists_sign_of_finite finite
  have isLiteral := (isNumeral_trimmedText plainPlaces (rounded plainPlaces x)).isLiteral
  have inRange := Binary64.nearestBits_lt_infinityBits (Binary64.isFinite_iff.mp finite)
    pow_plainPlaces_pos (rfl : _ = rounded plainPlaces x)
  have nearest := Binary64.nearest?_eq_some_iff.mpr ⟨inRange, rfl⟩
  have valueEq := toFloat?_trimmedText plainPlaces (rounded plainPlaces x)
  rw [nearest] at valueEq
  rcases exists_spells_signed isLiteral valueEq negative with
    ⟨expression, result, isFactor, spells, resultEq, resultFinite, sign, magnitude⟩
  rw [← textEq, ← plainEq] at spells
  have calculated := spells.calculate_eq (.product (.factor isFactor))
  rw [resultEq] at calculated
  have magnitudeEq := magnitude.trans (Binary64.nearest?_spec nearest).2.2
  exact ⟨result, calculated, resultFinite, magnitudeEq,
    fun nonzero => sign.trans (signEq nonzero)⟩

/-- The value that is read back has the same plain form. -/
theorem IsReadBack.plainText_eq {x y : Float} (finite : x.isFinite = true)
    (readBack : IsReadBack x y) : plainText y = plainText x := by
  have kept : rounded plainPlaces y = rounded plainPlaces x := by
    rw [rounded, readBack.magnitude]
    exact Binary64.roundHalfEven_units_nearestBits pow_plainPlaces_pos
      (rfl : _ = rounded plainPlaces x)
  exact plainText_congr readBack.isFinite finite kept readBack.sign

end Amount

end AmountPad
