import AmountPad.Proofs.Decimal.Exact
import AmountPad.Proofs.Decimal.Fixed

/-!
# Canonical texts of decimals

The digits before and behind a point are the whole part and the fraction of the number
they denote, and both are told by their value.  So a decimal has one canonical text, and
different decimals have different ones.  A rational number has one rounding to a number
of places.
-/

namespace AmountPad.Decimal

/-! ## Digits and their values -/

theorem exists_digitChar_eq {c : Char} (isDigit : c.isDigit = true) :
    ∃ digit < 10, c = Nat.digitChar digit := by
  obtain ⟨low, high⟩ := Char.isDigit_iff_toNat.mp isDigit
  have small : c.toNat - '0'.toNat < 10 := by
    simp only [Char.reduceToNat] at *
    omega
  refine ⟨_, small, Char.toNat_inj.mp ?_⟩
  rw [Nat.toNat_digitChar_of_lt_ten small]
  simp only [Char.reduceToNat] at *
  omega

theorem fractionRat_digitChar_cons {digit : Nat} (small : digit < 10) (rest : Text) :
    fractionRat (Nat.digitChar digit :: rest) = (digit + fractionRat rest) / 10 := by
  have value : (Nat.digitChar digit).toNat - '0'.toNat = digit :=
    Nat.toNat_digitChar_sub_48_of_lt_ten small
  rw [fractionRat, value]

/-- Digits behind a point are worth less than one. -/
theorem fractionRat_bounds {fraction : Text} (digits : ∀ c ∈ fraction, c.isDigit = true) :
    0 ≤ fractionRat fraction ∧ fractionRat fraction < 1 := by
  induction fraction with
  | nil => simp [fractionRat]
  | cons c rest inductionHypothesis =>
      rw [List.forall_mem_cons] at digits
      obtain ⟨digit, small, rfl⟩ := exists_digitChar_eq digits.1
      obtain ⟨nonneg, below⟩ := inductionHypothesis digits.2
      have digitNonneg : (0 : Rat) ≤ digit := Nat.cast_nonneg digit
      have digitLe : (digit : Rat) ≤ 9 := by
        exact_mod_cast Nat.le_of_lt_succ small
      rw [fractionRat_digitChar_cons small]
      constructor <;> linarith

/-- They are worth something unless the last one is a zero. -/
theorem fractionRat_pos {fraction : Text} (digits : ∀ c ∈ fraction, c.isDigit = true)
    (nonempty : fraction ≠ []) (last : fraction.getLast? ≠ some '0') :
    0 < fractionRat fraction := by
  induction fraction with
  | nil => exact absurd rfl nonempty
  | cons c rest inductionHypothesis =>
      rw [List.forall_mem_cons] at digits
      obtain ⟨digit, small, rfl⟩ := exists_digitChar_eq digits.1
      have digitNonneg : (0 : Rat) ≤ digit := Nat.cast_nonneg digit
      rw [fractionRat_digitChar_cons small]
      by_cases alone : rest = []
      · subst rest
        have notZero : digit ≠ 0 := by
          rintro rfl
          exact last rfl
        have digitPositive : (0 : Rat) < digit := Nat.cast_pos.mpr (Nat.pos_of_ne_zero notZero)
        simp only [fractionRat]
        linarith
      · rw [List.getLast?_cons_of_ne_nil alone] at last
        have restPositive := inductionHypothesis digits.2 alone last
        linarith

/-- The zeros at the end are worth nothing. -/
theorem fractionRat_dropTrailingZeros (text : Text) :
    fractionRat (dropTrailingZeros text) = fractionRat text := by
  induction text with
  | nil => rfl
  | cons c text inductionHypothesis =>
      rw [dropTrailingZeros_cons]
      split
      · rename_i dropped
        have worthless : fractionRat text = 0 := by
          rw [← inductionHypothesis, dropped.2, fractionRat]
        simp [fractionRat, worthless, dropped.1]
      · rw [fractionRat, inductionHypothesis, ← fractionRat]

/-- A number has only one whole part, and only one fraction. -/
theorem eq_and_eq_of_add_eq {whole other : Nat} {part otherPart : Rat}
    (bounds : 0 ≤ part ∧ part < 1) (otherBounds : 0 ≤ otherPart ∧ otherPart < 1)
    (equal : whole + part = other + otherPart) : whole = other ∧ part = otherPart := by
  have notAbove : (whole : Rat) < other + 1 := by linarith
  have notBelow : (other : Rat) < whole + 1 := by linarith
  have same : whole = other :=
    Nat.le_antisymm (Nat.le_of_lt_succ (by exact_mod_cast notAbove))
      (Nat.le_of_lt_succ (by exact_mod_cast notBelow))
  subst other
  exact ⟨rfl, add_left_cancel equal⟩

/-- Digits behind a point are told by their value if the last one is no zero. -/
theorem eq_of_fractionRat_eq {first second : Text}
    (firstDigits : ∀ c ∈ first, c.isDigit = true) (firstLast : first.getLast? ≠ some '0')
    (secondDigits : ∀ c ∈ second, c.isDigit = true) (secondLast : second.getLast? ≠ some '0')
    (equal : fractionRat first = fractionRat second) : first = second := by
  have restLast {c : Char} {rest : Text} (last : (c :: rest).getLast? ≠ some '0') :
      rest.getLast? ≠ some '0' := by
    by_cases alone : rest = []
    · simp [alone]
    · rwa [List.getLast?_cons_of_ne_nil alone] at last
  induction first generalizing second with
  | nil =>
      by_contra different
      have positive := fractionRat_pos secondDigits (Ne.symm different) secondLast
      exact absurd equal positive.ne
  | cons c first inductionHypothesis =>
      cases second with
      | nil =>
          have positive := fractionRat_pos firstDigits (List.cons_ne_nil c first) firstLast
          exact absurd equal positive.ne'
      | cons e second =>
          rw [List.forall_mem_cons] at firstDigits secondDigits
          obtain ⟨digit, small, rfl⟩ := exists_digitChar_eq firstDigits.1
          obtain ⟨other, otherSmall, rfl⟩ := exists_digitChar_eq secondDigits.1
          rw [fractionRat_digitChar_cons small, fractionRat_digitChar_cons otherSmall,
            div_left_inj' (by norm_num)] at equal
          obtain ⟨rfl, restEqual⟩ := eq_and_eq_of_add_eq (fractionRat_bounds firstDigits.2)
            (fractionRat_bounds secondDigits.2) equal
          rw [inductionHypothesis firstDigits.2 (restLast firstLast) secondDigits.2
            (restLast secondLast) restEqual]

/-- All digits of a number, without a superfluous zero, are the digits it is written
with. -/
theorem IsWhole.toDigits_ofDigitChars {whole : Text} (isWhole : IsWhole whole) :
    Nat.toDigits 10 (Nat.ofDigitChars 10 whole 0) = whole := by
  induction whole using List.reverseRecOn with
  | nil => exact absurd rfl isWhole.ne_nil
  | append_singleton front c inductionHypothesis =>
      obtain ⟨digit, small, rfl⟩ := exists_digitChar_eq (isWhole.isDigit c (by simp))
      rw [Nat.ofDigitChars_append, Nat.ofDigitChars_cons_digitChar_of_lt_ten small,
        Nat.ofDigitChars_nil]
      by_cases alone : front = []
      · rw [alone, Nat.ofDigitChars_nil, Nat.mul_zero, Nat.zero_add,
          Nat.toDigits_of_lt_base small, List.nil_append]
      · -- the front is no lone zero, since there is a digit behind it
        have head : front.head? ≠ some '0' := by
          obtain ⟨first, rest, rfl⟩ := List.exists_cons_of_ne_nil alone
          simpa using isWhole.front
        have digits := inductionHypothesis
          ⟨alone, fun c member => isWhole.isDigit c (List.mem_append_left _ member), .inr head⟩
        have positive : 0 < Nat.ofDigitChars 10 front 0 := by
          apply Nat.pos_of_ne_zero
          intro zero
          rw [zero, Nat.toDigits_zero] at digits
          rw [← digits] at head
          exact head rfl
        rw [← Nat.toDigits_append_toDigits (by decide) positive small, digits,
          Nat.toDigits_of_lt_base small]

theorem isWhole_wholeDigits (places number : Nat) : IsWhole (wholeDigits places number) :=
  ⟨wholeDigits_ne_nil places number, isDigit_wholeDigits places number,
    wholeDigits_eq_or_head?_ne places number⟩

/-! ## Values of literals -/

section Literals

variable {whole : Text} (digits : ∀ c ∈ whole, c.isDigit = true)

include digits

theorem literalRat_append_point (fraction : Text) :
    literalRat (whole ++ '.' :: fraction) =
      Nat.ofDigitChars 10 whole 0 + fractionRat fraction := by
  have scale : (0 : Rat) < 10 ^ fraction.length := by positivity
  rw [literalRat_eq, ofLiteral_append_point digits]
  dsimp only
  rw [Nat.ofDigitChars_append, ofDigitChars_eq, Nat.cast_pow, Nat.cast_ofNat,
    mul_div_cancel_left₀ _ scale.ne']

/-- A point without a fraction can be left out. -/
theorem literalRat_append_of_trimmed (fraction : Text) :
    literalRat (whole ++ if fraction = [] then [] else '.' :: fraction) =
      literalRat (whole ++ '.' :: fraction) := by
  split
  · rename_i noFraction
    rw [literalRat_append_point digits, noFraction, List.append_nil, literalRat_eq,
      ofLiteral_of_isDigit digits]
    simp [fractionRat]
  · rfl

end Literals

/-- A zero in front is worth nothing. -/
theorem literalRat_zero_cons (text : Text) : literalRat ('0' :: text) = literalRat text := by
  simp [literalRat, Nat.ofDigitChars_cons]

/-- One more digit adds to the value, which is ten times what it was unless there is a
point: then the digit is worth a tenth of the last place. -/
theorem literalRat_concat_digitChar {digit : Nat} (small : digit < 10) (literal : Text) :
    literalRat (literal ++ [Nat.digitChar digit]) =
      if '.' ∈ literal then literalRat literal + digit / 10 ^ ((ofLiteral literal).places + 1)
      else 10 * literalRat literal + digit := by
  rw [literalRat_eq, literalRat_eq, ofLiteral_concat_digitChar small]
  split
  · push_cast
    field_simp
    ring
  · rename_i noPoint
    rw [ofLiteral_of_notMem noPoint]
    simp

/-- A point at the end is worth nothing. -/
theorem literalRat_concat_point {literal : Text} (noPoint : '.' ∉ literal) :
    literalRat (literal ++ ['.']) = literalRat literal := by
  rw [literalRat_eq, literalRat_eq, ofLiteral_append_first_point noPoint, List.append_nil,
    ofLiteral_of_notMem noPoint, List.length_nil]

/-- Written with all places, a number of `10 ^ -places` is worth itself. -/
theorem literalRat_fixedText (places number : Nat) :
    literalRat (fixedText places number) = number / 10 ^ places := by
  rw [fixedText, literalRat_eq, ofLiteral_append_point (isDigit_wholeDigits places number)]
  dsimp only
  rw [ofDigitChars_wholeDigits_append, length_fractionDigits, Nat.cast_pow, Nat.cast_ofNat]

/-! ## Canonical texts -/

section Canonical

variable {d e : Rat} {text other whole otherWhole fraction otherFraction : Text}

/-- The trimmed form with a minus, if the number is below zero, is canonical. -/
theorem isCanonical_trimmedText {places number : Nat} (value : |d| = number / 10 ^ places) :
    IsCanonical d ((if d < 0 then ['-'] else []) ++ trimmedText places number)
      (wholeDigits places number) (dropTrailingZeros (fractionDigits places number)) where
  text_eq := by
    rw [List.append_assoc, List.append_cancel_left_eq]
    simp only [trimmedText]
    split <;> simp
  isWhole := isWhole_wholeDigits places number
  isDigit := isDigit_dropTrailingZeros (isDigit_fractionDigits places number)
  last := getLast?_dropTrailingZeros_ne _
  value := by
    have digits := isDigit_wholeDigits places number
    rw [value, ← literalRat_fixedText, fixedText, literalRat_append_point digits,
      literalRat_append_point digits, fractionRat_dropTrailingZeros]

namespace IsCanonical

variable (first : IsCanonical d text whole fraction)
variable (second : IsCanonical e other otherWhole otherFraction)

include first

theorem abs_eq : |d| = Nat.ofDigitChars 10 whole 0 + fractionRat fraction := by
  rw [← first.value, literalRat_append_point first.isWhole.isDigit]

/-- What is no digit is a minus in front or a point behind the digits. -/
theorem mem_iff_of_not_isDigit {c : Char} (noDigit : c.isDigit ≠ true) :
    c ∈ text ↔ (c = '-' ∧ d < 0) ∨ (c = '.' ∧ fraction ≠ []) := by
  have notBefore : c ∉ whole := fun member => noDigit (first.isWhole.isDigit c member)
  have notBehind : c ∉ fraction := fun member => noDigit (first.isDigit c member)
  rw [first.text_eq]
  split <;> split <;> simp [*]

/-- There is a minus if the number is below zero. -/
theorem minus_mem_iff : '-' ∈ text ↔ d < 0 := by
  have iff := first.mem_iff_of_not_isDigit (by decide : Char.isDigit '-' ≠ true)
  simpa using iff

/-- There is a point if there is a fraction. -/
theorem point_mem_iff : '.' ∈ text ↔ fraction ≠ [] := by
  have iff := first.mem_iff_of_not_isDigit (by decide : Char.isDigit '.' ≠ true)
  simpa using iff

/-- There is a fraction if the number is not whole. -/
theorem fraction_ne_nil_iff : fraction ≠ [] ↔ ∀ number : Int, d ≠ number := by
  constructor
  · rintro nonempty number rfl
    have positive := fractionRat_pos first.isDigit nonempty first.last
    have absEq := first.abs_eq
    rw [← Int.cast_abs, Int.abs_eq_natAbs, Int.cast_natCast] at absEq
    have wholeEq : ((number.natAbs : Nat) : Rat) + 0 =
        Nat.ofDigitChars 10 whole 0 + fractionRat fraction := by
      rw [add_zero, absEq]
    have same := eq_and_eq_of_add_eq ⟨le_rfl, one_pos⟩ (fractionRat_bounds first.isDigit) wholeEq
    exact positive.ne same.2
  · rintro notWhole rfl
    have absEq := first.abs_eq
    rw [fractionRat, add_zero] at absEq
    rcases abs_choice d with isAbs | isNeg
    · exact notWhole (Nat.ofDigitChars 10 whole 0) (by rw [← isAbs, absEq, Int.cast_natCast])
    · refine notWhole (-(Nat.ofDigitChars 10 whole 0 : Int)) ?_
      rw [Int.cast_neg, Int.cast_natCast, ← absEq, isNeg, neg_neg]

/-- A number has one canonical text. -/
theorem unique (second : IsCanonical d other otherWhole otherFraction) : text = other := by
  have values := first.abs_eq.symm.trans second.abs_eq
  obtain ⟨wholeValue, fractionValue⟩ := eq_and_eq_of_add_eq (fractionRat_bounds first.isDigit)
    (fractionRat_bounds second.isDigit) values
  have sameWhole : whole = otherWhole := by
    rw [← first.isWhole.toDigits_ofDigitChars, wholeValue, second.isWhole.toDigits_ofDigitChars]
  have sameFraction : fraction = otherFraction :=
    eq_of_fractionRat_eq first.isDigit first.last second.isDigit second.last fractionValue
  rw [first.text_eq, second.text_eq, sameWhole, sameFraction]

include second

/-- Two numbers have the same canonical text if and only if they are equal. -/
theorem text_eq_iff : text = other ↔ d = e := by
  constructor
  · intro same
    have signs : d < 0 ↔ e < 0 := by
      rw [← first.minus_mem_iff, same, second.minus_mem_iff]
    have texts := first.text_eq.symm.trans (same.trans second.text_eq)
    simp only [signs, List.append_assoc, List.append_cancel_left_eq] at texts
    have values : |d| = |e| := by
      rw [← first.value, ← literalRat_append_of_trimmed first.isWhole.isDigit, texts,
        literalRat_append_of_trimmed second.isWhole.isDigit, second.value]
    by_cases negative : e < 0
    · rw [abs_of_neg (signs.mpr negative), abs_of_neg negative] at values
      exact neg_inj.mp values
    · rw [abs_of_nonneg (not_lt.mp (signs.not.mpr negative)),
        abs_of_nonneg (not_lt.mp negative)] at values
      exact values
  · rintro rfl
    exact first.unique second

end IsCanonical

theorem isCanonical_zero : IsCanonical 0 ['0'] ['0'] [] where
  text_eq := by simp
  isWhole := ⟨by simp, by simp, .inl rfl⟩
  isDigit := by simp
  last := by simp
  value := by
    rw [abs_zero]
    decide +kernel

end Canonical

/-! ## Roundings -/

section Roundings

variable {places : Nat} {q d e : Rat}

/-- The rounded quotient of natural numbers is the rounding. -/
theorem isRounding_roundHalfEven {numerator denominator : Nat} (positive : 0 < denominator) :
    IsRounding places (numerator / denominator)
      ((roundHalfEven (numerator * 10 ^ places) denominator : Nat) / 10 ^ places) := by
  have denominatorPositive : (0 : Rat) < denominator := Nat.cast_pos.mpr positive
  obtain ⟨near, even⟩ := (roundHalfEven_eq_iff positive).mp
    (rfl : _ = roundHalfEven (numerator * 10 ^ places) denominator)
  generalize roundHalfEven (numerator * 10 ^ places) denominator = number at near even ⊢
  have distance : |(numerator : Rat) / denominator * 10 ^ places - (number : Int)| =
      Nat.dist (denominator * number) (numerator * 10 ^ places) / denominator := by
    have quotient : (numerator : Rat) / denominator * 10 ^ places - (number : Int) =
        ((numerator * 10 ^ places : Nat) - (denominator * number : Nat)) / denominator := by
      push_cast
      field_simp
    rw [quotient, abs_div, abs_of_pos denominatorPositive, Binary64.abs_natCast_sub,
      Nat.dist_comm]
  refine ⟨number, by rw [Int.cast_natCast], ?_, ?_⟩
  · rw [distance, div_le_div_iff₀ denominatorPositive two_pos, mul_comm, one_mul]
    exact_mod_cast near
  · intro tie
    rw [distance, div_eq_div_iff denominatorPositive.ne' two_ne_zero, mul_comm, one_mul] at tie
    exact_mod_cast even (by exact_mod_cast tie)

/-- The rounding of a number below zero is that of its magnitude. -/
theorem IsRounding.neg (rounding : IsRounding places q d) : IsRounding places (-q) (-d) := by
  obtain ⟨number, rfl, near, even⟩ := rounding
  have distance : |-q * 10 ^ places - (-number : Int)| = |q * 10 ^ places - number| := by
    rw [← abs_neg]
    push_cast
    ring_nf
  refine ⟨-number, by rw [Int.cast_neg, neg_div], ?_, ?_⟩
  · rw [distance]
    exact near
  · rw [distance]
    intro tie
    have isEven := even tie
    omega

/-- A number has one rounding. -/
theorem IsRounding.unique (first : IsRounding places q d) (second : IsRounding places q e) :
    d = e := by
  obtain ⟨number, rfl, near, even⟩ := first
  obtain ⟨other, rfl, otherNear, otherEven⟩ := second
  suffices same : number = other by rw [same]
  by_contra different
  have between : |(number : Rat) - other| ≤
      |q * 10 ^ places - number| + |q * 10 ^ places - other| := by
    rw [abs_sub_comm (q * 10 ^ places)]
    exact abs_sub_le _ _ _
  -- different whole numbers are apart, so both are half a unit away
  have apart : (1 : Rat) ≤ |(number : Rat) - other| := by
    exact_mod_cast Int.one_le_abs (sub_ne_zero.mpr different)
  have isEven := even (by linarith)
  have otherIsEven := otherEven (by linarith)
  have neighbours : |number - other| ≤ 1 := by
    have close : |(number : Rat) - other| ≤ 1 := by linarith
    exact_mod_cast close
  rw [abs_le] at neighbours
  omega

end Roundings

end AmountPad.Decimal
