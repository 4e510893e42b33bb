import AmountPad.Proofs.Amount.Canonical
import AmountPad.Proofs.Pad.Value

/-!
# The sign of an amount

The digits of an amount are those of the rounded value, and the sign is that of the value
itself.  They go together for every value but those below zero by half a hundredth or less:
these are shown as a zero with a minus.  A pad shows one exactly if its value is one of them.
-/

namespace AmountPad

open Decimal Binary64

/-! ## Values that round to zero -/

/-- A number rounds to zero if it is within half a unit of the last place. -/
theorem Decimal.isRounding_zero_iff {places : Nat} {q : Rat} :
    IsRounding places q 0 ↔ |q| * 10 ^ places ≤ 1 / 2 := by
  have scaled : |q * 10 ^ places| = |q| * 10 ^ places := by
    rw [abs_mul, abs_of_pos (by positivity : (0 : Rat) < 10 ^ places)]
  constructor
  · rintro ⟨number, isZero, near, _⟩
    have numberZero : (number : Rat) = 0 := by
      simpa using isZero.symm
    rwa [numberZero, sub_zero, scaled] at near
  · intro near
    refine ⟨0, by simp, ?_, fun _ => rfl⟩
    rwa [Int.cast_zero, sub_zero, scaled]

theorem Decimal.fixedText_inj {places number other : Nat} :
    fixedText places number = fixedText places other ↔ number = other := by
  constructor
  · intro same
    have values := congrArg literalRat same
    rw [literalRat_fixedText, literalRat_fixedText,
      div_left_inj' (by positivity), Nat.cast_inj] at values
    exact values
  · rintro rfl
    rfl

namespace Amount

variable {x : Float} {places : Nat}

theorem rounded_eq_zero_iff : rounded places x = 0 ↔ |toRat x| * 10 ^ places ≤ 1 / 2 := by
  have rounding := isRounding_abs_toRat places x
  rw [← abs_abs (toRat x), ← isRounding_zero_iff]
  constructor
  · intro isZero
    rwa [isZero, Nat.cast_zero, zero_div] at rounding
  · intro isZero
    have same := rounding.unique isZero
    rwa [div_eq_zero_iff, or_iff_left (by positivity), Nat.cast_eq_zero] at same

/-! ## Signs of amounts -/

theorem head?_signed_fixedText (negative : Bool) (places number : Nat) :
    (signed negative (fixedText places number)).head? = some '-' ↔ negative = true := by
  cases negative with
  | false =>
      have noMinus : (fixedText places number).head? ≠ some '-' := by
        intro isMinus
        have isChar := isLiteralChar_fixedText places number '-' (List.mem_of_head? isMinus)
        cases isChar
      exact iff_of_false noMinus Bool.false_ne_true
  | true => exact iff_of_true rfl rfl

/-- The amount of a finite value has the sign of the value. -/
theorem head?_centsText (finite : x.isFinite = true) :
    (centsText x).head? = some '-' ↔ toRat x < 0 := by
  rw [centsText_of_finite finite, head?_signed_fixedText, decide_eq_true_iff]

theorem rounded_two_eq_zero_iff (below : toRat x < 0) :
    rounded 2 x = 0 ↔ -1 / 200 ≤ toRat x := by
  rw [rounded_eq_zero_iff, abs_of_neg below]
  constructor <;> intro bound <;> linarith

/-- The amount is a zero with a minus for values below zero that round to zero. -/
theorem centsText_eq_negative_zero_iff (finite : x.isFinite = true) :
    centsText x = "-0.00".toList ↔ -1 / 200 ≤ toRat x ∧ toRat x < 0 := by
  have negativeZero : "-0.00".toList = signed true (fixedText 2 0) := by decide
  by_cases below : toRat x < 0
  · rw [centsText_of_finite finite, negativeZero, decide_eq_true below, signed, signed,
      if_pos rfl, if_pos rfl, List.cons_inj_right, fixedText_inj,
      rounded_two_eq_zero_iff below]
    exact (and_iff_left below).symm
  · refine iff_of_false ?_ fun both => below both.2
    intro same
    apply below
    rw [← head?_centsText finite, same]
    rfl

/-- The rounding is below zero if the value is and does not round to zero. -/
theorem roundedRat_neg_iff_toRat_neg :
    roundedRat places x < 0 ↔ toRat x < 0 ∧ rounded places x ≠ 0 := by
  by_cases isZero : rounded places x = 0
  · rw [roundedRat_eq_zero_iff.mpr isZero]
    exact iff_of_false (lt_irrefl 0) fun both => both.2 isZero
  · have magnitudeNe : magnitude x ≠ 0 := by
      intro magnitudeZero
      exact isZero (by rw [rounded, magnitudeZero, Nat.zero_mul, roundHalfEven_zero])
    rw [roundedRat_neg_iff isZero, toRat_neg_iff]
    exact ⟨fun sign => ⟨⟨sign, magnitudeNe⟩, isZero⟩, fun both => both.1.1⟩

/-- The amount has the sign of its rounding, unless it is a zero with a minus. -/
theorem head?_centsText_iff_rounding_neg_iff (finite : x.isFinite = true) {d : Rat}
    (rounding : IsRounding 2 (toRat x) d) :
    ((centsText x).head? = some '-' ↔ d < 0) ↔ ¬ (-1 / 200 ≤ toRat x ∧ toRat x < 0) := by
  rw [rounding.unique (isRounding_roundedRat 2 x), head?_centsText finite,
    roundedRat_neg_iff_toRat_neg]
  by_cases below : toRat x < 0
  · simp [below, rounded_two_eq_zero_iff below]
  · simp [below]

end Amount

/-! ## The amount of a pad -/

namespace Pad

/-- The amount of a finite value has a minus exactly if its rounding to hundredths is below
zero, unless the value is below zero by half a hundredth or less.  Such a value is shown as a
zero with a minus, and a pad shows one exactly if its value is such a value, whatever the
steps that led to it. -/
theorem centsText_minus_iff_and_amountText_run (steps : List Step) :
    (∀ x : Float, x.isFinite = true →
      (∀ d, IsRounding 2 (toRat x) d →
        (((Amount.centsText x).head? = some '-' ↔ d < 0) ↔
          ¬ (-1 / 200 ≤ toRat x ∧ toRat x < 0))) ∧
        (Amount.centsText x = "-0.00".toList ↔ -1 / 200 ≤ toRat x ∧ toRat x < 0)) ∧
      ((run {} steps).amountText = "-0.00".toList ↔
        -1 / 200 ≤ toRat (run {} steps).value ∧ toRat (run {} steps).value < 0) := by
  constructor
  · intro x finite
    constructor
    · intro d rounding
      exact Amount.head?_centsText_iff_rounding_neg_iff finite rounding
    · exact Amount.centsText_eq_negative_zero_iff finite
  · have consistent : IsConsistent (run {} steps) := isConsistent_empty.run steps
    exact Amount.centsText_eq_negative_zero_iff consistent.isFinite

/-- A value that rounds to a hundredth below zero has its minus, typed or not, and the double
below zero has none. -/
theorem centsText_minus_iff_and_amountText_run_of_hundredth :
    let steps := "−0.007".toList.map Step.type
    ((-0.007 : Float).isFinite = true ∧ IsRounding 2 (toRat (-0.007)) (-1 / 100) ∧
        (Amount.centsText (-0.007)).head? = some '-' ∧
        (run {} steps).amountText ≠ "-0.00".toList) ∧
      (-0.0 : Float).isFinite = true ∧ IsRounding 2 (toRat (-0.0)) 0 ∧
      (Amount.centsText (-0.0)).head? ≠ some '-' := by
  intro steps
  have hundredthFinite : (-0.007 : Float).isFinite = true := by decide +kernel
  have zeroFinite : (-0.0 : Float).isFinite = true := by decide +kernel
  have hundredthRounding : IsRounding 2 (toRat (-0.007)) (-1 / 100) :=
    ⟨-1, by norm_num, by decide +kernel, by decide +kernel⟩
  have zeroRounding : IsRounding 2 (toRat (-0.0)) 0 :=
    ⟨0, by norm_num, by decide +kernel, by decide +kernel⟩
  have hundredthLarge : ¬ (-1 / 200 ≤ toRat (-0.007) ∧ toRat (-0.007) < 0) := by
    decide +kernel
  have typedLarge : ¬ (-1 / 200 ≤ toRat (run {} steps).value ∧
      toRat (run {} steps).value < 0) := by
    decide +kernel
  have zeroNotBelow : ¬ (-1 / 200 ≤ toRat (-0.0) ∧ toRat (-0.0) < 0) := by decide +kernel
  obtain ⟨amounts, shown⟩ := centsText_minus_iff_and_amountText_run steps
  have hundredth := (amounts _ hundredthFinite).1 _ hundredthRounding
  have zero := (amounts _ zeroFinite).1 _ zeroRounding
  have hundredthMinus := (hundredth.mpr hundredthLarge).mpr (by norm_num)
  have zeroNoMinus := (zero.mpr zeroNotBelow).not.mpr (lt_irrefl 0)
  exact ⟨⟨hundredthFinite, hundredthRounding, hundredthMinus, shown.not.mpr typedLarge⟩,
    zeroFinite, zeroRounding, zeroNoMinus⟩

/-- A pad shows a thousandth below zero as a zero with a minus. -/
theorem amountText_of_negative_thousandth :
    let pad := run {} ("−0.001".toList.map .type)
    pad.value.isFinite = true ∧ IsRounding 2 (toRat pad.value) 0 ∧
      (Amount.centsText pad.value).head? = some '-' ∧ pad.amountText = "-0.00".toList := by
  intro pad
  exact ⟨by decide +kernel, ⟨0, by norm_num, by decide +kernel, by decide +kernel⟩,
    by decide +kernel, by decide +kernel⟩

end Pad

end AmountPad
