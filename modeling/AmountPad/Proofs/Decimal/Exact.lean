import AmountPad.Decimal.Exact
import AmountPad.Proofs.Binary64.Nearest

/-!
# Literals and the doubles they denote

A literal is worth its digits, read as one number, over a power of ten.  So its value
in the calculator is the double nearest to its exact value, and there is one as long
as the exact value is below `2 ^ 1024 - 2 ^ 970`.
-/

namespace AmountPad.Decimal

/-- Digits behind a point, read on as digits of one number. -/
theorem ofDigitChars_eq (fraction : Text) (start : Nat) :
    (Nat.ofDigitChars 10 fraction start : Rat) =
      10 ^ fraction.length * (start + fractionRat fraction) := by
  induction fraction generalizing start with
  | nil => simp [fractionRat]
  | cons c fraction inductionHypothesis =>
      rw [Nat.ofDigitChars_cons, inductionHypothesis, fractionRat, List.length_cons, pow_succ]
      push_cast
      ring

/-- The exact value of a literal is that of the decimal it denotes. -/
theorem literalRat_eq (literal : Text) :
    literalRat literal =
      ((ofLiteral literal).coefficient : Rat) / (10 ^ (ofLiteral literal).places : Nat) := by
  have scale : (0 : Rat) < (10 ^ (ofLiteral literal).places : Nat) :=
    Nat.cast_pos.mpr (Nat.pow_pos Nat.succ_pos')
  rw [eq_div_iff scale.ne', ofLiteral, Nat.cast_pow, Nat.cast_ofNat]
  dsimp only
  rw [Nat.ofDigitChars_append, ofDigitChars_eq, literalRat, mul_comm]

theorem literalRat_nonneg (literal : Text) : 0 ≤ literalRat literal := by
  rw [literalRat_eq]
  exact div_nonneg (Nat.cast_nonneg _) (Nat.cast_nonneg _)

theorem isSome_toFloat?_ofLiteral_iff (literal : Text) :
    (ofLiteral literal).toFloat?.isSome ↔ literalRat literal < 2 ^ 1024 - 2 ^ 970 := by
  rw [literalRat_eq]
  exact Binary64.isSome_nearest?_iff (Nat.pow_pos Nat.succ_pos')

/-- The value of a literal in the calculator is the double nearest to its exact value,
which must be below the middle of the largest double and the next one there would be. -/
theorem toFloat?_ofLiteral_eq_some_iff {literal : Text} {x : Float} :
    (ofLiteral literal).toFloat? = some x ↔
      literalRat literal < 2 ^ 1024 - 2 ^ 970 ∧ Binary64.IsNearest (literalRat literal) x := by
  have nearestOf {y : Float} (valueEq : (ofLiteral literal).toFloat? = some y) :
      Binary64.IsNearest (literalRat literal) y := by
    rw [literalRat_eq]
    exact Binary64.isNearest_of_nearest? (Nat.pow_pos Nat.succ_pos') valueEq
  rw [← isSome_toFloat?_ofLiteral_iff]
  constructor
  · intro valueEq
    exact ⟨Option.isSome_of_eq_some valueEq, nearestOf valueEq⟩
  · rintro ⟨hasValue, nearest⟩
    obtain ⟨y, valueEq⟩ := Option.isSome_iff_exists.mp hasValue
    rw [valueEq, (nearestOf valueEq).unique (literalRat_nonneg literal) nearest]

theorem toFloat?_ofLiteral_eq_none_iff {literal : Text} :
    (ofLiteral literal).toFloat? = none ↔ 2 ^ 1024 - 2 ^ 970 ≤ literalRat literal := by
  rw [← not_lt, ← isSome_toFloat?_ofLiteral_iff, Bool.not_eq_true, Option.isSome_eq_false_iff,
    Option.isNone_iff_eq_none]

end AmountPad.Decimal
