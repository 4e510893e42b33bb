import AmountPad.Proofs.Amount.Spelling
import AmountPad.Proofs.Decimal.Canonical

/-!
# The texts of values are canonical decimals

The plain form of a finite value is the canonical text of its exact value, rounded to
ten places.  So two values have the same plain form if and only if they have the same
rounding.  The amount shows the exact value rounded to hundredths, with both places.
-/

namespace AmountPad.Amount

open Binary64 Decimal

/-- The exact value of a double, rounded to a whole number of `10 ^ -places`. -/
def roundedRat (places : Nat) (x : Float) : Rat :=
  if isNegative x then -((rounded places x : Rat) / 10 ^ places)
  else (rounded places x : Rat) / 10 ^ places

section Roundings

variable {places : Nat} {x : Float}

theorem rounded_div_nonneg (places : Nat) (x : Float) :
    0 ≤ (rounded places x : Rat) / 10 ^ places := by
  positivity

theorem abs_roundedRat (places : Nat) (x : Float) :
    |roundedRat places x| = (rounded places x : Rat) / 10 ^ places := by
  unfold roundedRat
  split
  · rw [abs_neg, abs_of_nonneg (rounded_div_nonneg places x)]
  · rw [abs_of_nonneg (rounded_div_nonneg places x)]

theorem roundedRat_eq_zero_iff : roundedRat places x = 0 ↔ rounded places x = 0 := by
  rw [← abs_eq_zero, abs_roundedRat, div_eq_zero_iff, Nat.cast_eq_zero]
  simp

/-- The rounding of a value below zero is below zero, unless it is zero. -/
theorem roundedRat_neg_iff (nonzero : rounded places x ≠ 0) :
    roundedRat places x < 0 ↔ isNegative x = true := by
  have positive : 0 < (rounded places x : Rat) / 10 ^ places :=
    div_pos (Nat.cast_pos.mpr (Nat.pos_of_ne_zero nonzero)) (by positivity)
  unfold roundedRat
  cases isNegative x with
  | false => exact iff_of_false (not_lt_of_gt positive) Bool.false_ne_true
  | true => exact iff_of_true (neg_lt_zero.mpr positive) rfl

/-- The rounded magnitude is the magnitude of the rounding. -/
theorem isRounding_abs_toRat (places : Nat) (x : Float) :
    IsRounding places |toRat x| ((rounded places x : Rat) / 10 ^ places) := by
  rw [abs_toRat]
  exact isRounding_roundHalfEven unitsPerOne_pos

theorem isRounding_roundedRat (places : Nat) (x : Float) :
    IsRounding places (toRat x) (roundedRat places x) := by
  have rounding := isRounding_abs_toRat places x
  rw [abs_toRat] at rounding
  cases sign : isNegative x with
  | false =>
      rw [roundedRat, toRat_of_positive sign, sign, if_neg Bool.false_ne_true]
      exact rounding
  | true =>
      rw [roundedRat, toRat_of_negative sign, sign, if_pos rfl]
      exact rounding.neg

end Roundings

/-! ## The plain form -/

theorem signed_eq (negative : Bool) (digits : Text) :
    signed negative digits = (if negative then ['-'] else []) ++ digits := by
  cases negative <;> rfl

/-- The plain form of a finite value is the canonical text of its rounding. -/
theorem isCanonical_plainText {x : Float} (finite : x.isFinite = true) :
    ∃ whole fraction, IsCanonical (roundedRat plainPlaces x) (plainText x) whole fraction := by
  by_cases zero : rounded plainPlaces x = 0
  · rw [roundedRat_eq_zero_iff.mpr zero, plainText_of_zero fun _ => zero]
    exact ⟨_, _, isCanonical_zero⟩
  · have canonical := isCanonical_trimmedText (abs_roundedRat plainPlaces x)
    have textEq : plainText x = (if roundedRat plainPlaces x < 0 then ['-'] else []) ++
        trimmedText plainPlaces (rounded plainPlaces x) := by
      simp only [plainText_of_finite finite zero, signed_eq, roundedRat_neg_iff zero]
    rw [textEq]
    exact ⟨_, _, canonical⟩

/-! ## The amount -/

/-- Only a value below zero has a sign. -/
theorem toRat_neg_iff {x : Float} :
    toRat x < 0 ↔ isNegative x = true ∧ magnitude x ≠ 0 := by
  cases sign : isNegative x with
  | false =>
      have nonneg : 0 ≤ toRat x := by
        rw [toRat_of_positive sign]
        exact div_nonneg (Nat.cast_nonneg _) (Nat.cast_nonneg _)
      exact iff_of_false (not_lt_of_ge nonneg) fun both => Bool.false_ne_true both.1
  | true =>
      rw [toRat_of_negative sign, neg_lt_zero, div_pos_iff_of_pos_right unitsPerOne_pos_rat,
        Nat.cast_pos, Nat.pos_iff_ne_zero, eq_self, true_and]

/-- The digits of the amount of a finite value. -/
theorem centsText_of_finite {x : Float} (finite : x.isFinite = true) :
    centsText x = signed (decide (toRat x < 0)) (fixedText 2 (rounded 2 x)) := by
  simp only [centsText, finite, Bool.not_true, Bool.false_eq_true, if_false, toRat_neg_iff,
    Bool.decide_and, Bool.decide_eq_true]

/-! ## Both texts -/

/-- The plain form of a finite value is the one canonical text of its exact value,
rounded to ten places.  So it is a lone zero, has a minus or has a point as the rounding
is zero, below zero or not whole, and it is the same text for the same rounding only.
The amount is the magnitude of the exact value rounded to two places, both of which are
written, with a minus if the value is below zero. -/
theorem plainText_and_centsText_eq_rounding :
    (∀ x : Float, x.isFinite = true →
        ∃ d, IsRounding 10 (toRat x) d ∧ (∀ e, IsRounding 10 (toRat x) e → e = d) ∧
          (∃ whole fraction, IsCanonical d (plainText x) whole fraction) ∧
          (∀ text whole fraction, IsCanonical d text whole fraction → text = plainText x) ∧
          (plainText x = ['0'] ↔ d = 0) ∧ ('-' ∈ plainText x ↔ d < 0) ∧
          ('.' ∈ plainText x ↔ ∀ number : Int, d ≠ number)) ∧
      (∀ x y : Float, x.isFinite = true → y.isFinite = true →
        ∀ d e, IsRounding 10 (toRat x) d → IsRounding 10 (toRat y) e →
          (plainText x = plainText y ↔ d = e)) ∧
      ∀ x : Float, x.isFinite = true →
        ∃ whole fraction,
          centsText x = signed (decide (toRat x < 0)) (whole ++ '.' :: fraction) ∧
            IsWhole whole ∧ fraction.length = 2 ∧ (∀ c ∈ fraction, c.isDigit = true) ∧
            IsRounding 2 |toRat x| (literalRat (whole ++ '.' :: fraction)) ∧
            ∀ e, IsRounding 2 |toRat x| e → e = literalRat (whole ++ '.' :: fraction) := by
  refine ⟨?_, ?_, ?_⟩
  · intro x finite
    have rounding := isRounding_roundedRat plainPlaces x
    obtain ⟨whole, fraction, canonical⟩ := isCanonical_plainText finite
    refine ⟨roundedRat plainPlaces x, rounding, fun e other => other.unique rounding,
      ⟨whole, fraction, canonical⟩, ?_, canonical.text_eq_iff isCanonical_zero,
      canonical.minus_mem_iff, canonical.point_mem_iff.trans canonical.fraction_ne_nil_iff⟩
    intro text otherWhole otherFraction other
    exact other.unique canonical
  · intro x y xFinite yFinite d e xRounding yRounding
    obtain ⟨xWhole, xFraction, xCanonical⟩ := isCanonical_plainText xFinite
    obtain ⟨yWhole, yFraction, yCanonical⟩ := isCanonical_plainText yFinite
    rw [xRounding.unique (isRounding_roundedRat plainPlaces x),
      yRounding.unique (isRounding_roundedRat plainPlaces y)]
    exact xCanonical.text_eq_iff yCanonical
  · intro x finite
    have rounding := isRounding_abs_toRat 2 x
    rw [← literalRat_fixedText] at rounding
    exact ⟨wholeDigits 2 (rounded 2 x), fractionDigits 2 (rounded 2 x),
      centsText_of_finite finite, isWhole_wholeDigits 2 _, length_fractionDigits 2 _,
      isDigit_fractionDigits 2 _, rounding, fun e other => other.unique rounding⟩

/-- Two doubles with the same rounding, a negative one that rounds to zero, and the
amount of a half of a hundredth. -/
theorem plainText_and_centsText_eq_rounding_of_tenths :
    let sum : Float := 0.1 + 0.2
    let tiny : Float := -1e-12
    (sum.isFinite = true ∧ (0.3 : Float).isFinite = true ∧
        toRat sum ≠ toRat 0.3 ∧ IsRounding 10 (toRat sum) (3 / 10) ∧
        IsRounding 10 (toRat 0.3) (3 / 10) ∧ plainText sum = plainText 0.3) ∧
      (tiny.isFinite = true ∧ toRat tiny < 0 ∧ IsRounding 10 (toRat tiny) 0 ∧
        plainText tiny = ['0']) ∧
      ((0.125 : Float).isFinite = true ∧ IsRounding 2 |toRat 0.125| (12 / 100) ∧
        ∃ whole fraction, centsText 0.125 = whole ++ '.' :: fraction ∧
          literalRat (whole ++ '.' :: fraction) = 12 / 100) := by
  intro sum tiny
  obtain ⟨plain, same, cents⟩ := plainText_and_centsText_eq_rounding
  have sumFinite : sum.isFinite = true := by decide +kernel
  have otherFinite : (0.3 : Float).isFinite = true := by decide +kernel
  have tinyFinite : tiny.isFinite = true := by decide +kernel
  have eighthFinite : (0.125 : Float).isFinite = true := by decide +kernel
  have sumRounding : IsRounding 10 (toRat sum) (3 / 10) :=
    ⟨3000000000, by norm_num, by decide +kernel, by decide +kernel⟩
  have otherRounding : IsRounding 10 (toRat 0.3) (3 / 10) :=
    ⟨3000000000, by norm_num, by decide +kernel, by decide +kernel⟩
  have tinyRounding : IsRounding 10 (toRat tiny) 0 :=
    ⟨0, by norm_num, by decide +kernel, by decide +kernel⟩
  have eighthRounding : IsRounding 2 |toRat 0.125| (12 / 100) :=
    ⟨12, by norm_num, by decide +kernel, by decide +kernel⟩
  refine ⟨⟨sumFinite, otherFinite, by decide +kernel, sumRounding, otherRounding, ?_⟩,
    ⟨tinyFinite, by decide +kernel, tinyRounding, ?_⟩, eighthFinite, eighthRounding, ?_⟩
  · exact (same _ _ sumFinite otherFinite _ _ sumRounding otherRounding).mpr rfl
  · obtain ⟨d, _, isOnly, _, _, zeroIff, _⟩ := plain tiny tinyFinite
    exact zeroIff.mpr (isOnly 0 tinyRounding).symm
  · obtain ⟨whole, fraction, textEq, _, _, _, _, isOnly⟩ := cents 0.125 eighthFinite
    have notNegative : ¬ toRat 0.125 < 0 := by decide +kernel
    rw [decide_eq_false notNegative] at textEq
    exact ⟨whole, fraction, textEq, (isOnly _ eighthRounding).symm⟩

end AmountPad.Amount
