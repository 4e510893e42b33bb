import AmountPad.Amount
import AmountPad.Proofs.Decimal.Fixed
import AmountPad.Proofs.Entry.Chain

/-!
# The texts of values as typed texts

The plain form of a value is a zero, or a trimmed decimal with a minus in front
when the value is negative.  In the spelling of the pad it is a complete text, so
it can stand where a text has been typed.
-/

namespace AmountPad.Amount

open Decimal

/-! ## Decimals -/

/-- The trimmed form of a decimal is a numeral. -/
theorem isNumeral_trimmedText (places number : Nat) :
    Entry.IsNumeral (wholeDigits places number) (trimmedText places number) := by
  have nonempty := wholeDigits_ne_nil places number
  have digits := isDigit_wholeDigits places number
  rw [trimmedText]
  split
  · exact .integer nonempty digits
  · exact .decimal nonempty digits
      (isDigit_dropTrailingZeros (isDigit_fractionDigits places number))

/-- The trimmed form of a decimal ends in a digit. -/
theorem getLast?_trimmedText (places number : Nat) :
    ∀ c ∈ (trimmedText places number).getLast?, c.isDigit = true := by
  have digits := isDigit_wholeDigits places number
  have fraction := isDigit_dropTrailingZeros (isDigit_fractionDigits places number)
  intro c isLast
  rw [trimmedText] at isLast
  split at isLast
  · exact digits c (List.mem_of_getLast? isLast)
  · rename_i nonempty
    have lastEq := List.getLast?_eq_some_getLast nonempty
    rw [List.getLast?_append, List.getLast?_cons_of_ne_nil nonempty, lastEq,
      Option.some_or, ← lastEq] at isLast
    exact fraction c (List.mem_of_getLast? isLast)

theorem isLiteralChar_fixedText (places number : Nat) :
    ∀ c ∈ fixedText places number, isLiteralChar c = true := by
  have whole := isDigit_wholeDigits places number
  have fraction := isDigit_fractionDigits places number
  exact List.forall_mem_append.mpr
    ⟨fun c member => isLiteralChar_of_isDigit (whole c member),
      List.forall_mem_cons.mpr
        ⟨isLiteralChar_point, fun c member => isLiteralChar_of_isDigit (fraction c member)⟩⟩

/-! ## Signs -/

section Signs

variable {digits : Text} (chars : ∀ c ∈ digits, isLiteralChar c = true)

include chars

/-- Digits and points have only one spelling. -/
theorem map_glyphMinus_eq : digits.map glyphMinus = digits := by
  have sameChars : ∀ c ∈ digits, glyphMinus c = id c := by
    intro c member
    have notMinus : c ≠ '-' := by
      rintro rfl
      cases chars '-' member
    exact if_neg notMinus
  rw [List.map_congr_left sameChars, List.map_id]

/-- In the spelling of the pad a sign is the glyph. -/
theorem map_glyphMinus_signed (negative : Bool) :
    (signed negative digits).map glyphMinus =
      if negative then Operator.minus.glyph :: digits else digits := by
  cases negative with
  | false => exact map_glyphMinus_eq chars
  | true =>
      have tail := map_glyphMinus_eq chars
      simpa [signed, glyphMinus, Operator.glyph] using tail

/-- The plain spelling of signed digits, from either spelling. -/
theorem plain_map_glyphMinus_signed (negative : Bool) :
    plain ((signed negative digits).map glyphMinus) = signed negative digits ∧
      plain (signed negative digits) = signed negative digits := by
  have digitsEq := plain_eq_self_of_isLiteralChar chars
  rw [map_glyphMinus_signed chars]
  cases negative with
  | false => exact ⟨digitsEq, digitsEq⟩
  | true =>
      constructor
      · exact (plain_glyph_cons .minus digits).trans (congrArg _ digitsEq)
      · exact congrArg (List.cons '-') digitsEq

end Signs

/-! ## The plain form -/

/-- The plain form of a finite value that does not round to zero. -/
theorem plainText_of_finite {x : Float} (finite : x.isFinite = true)
    (nonzero : rounded plainPlaces x ≠ 0) :
    plainText x =
      signed (Binary64.isNegative x) (trimmedText plainPlaces (rounded plainPlaces x)) := by
  simp only [plainText, finite, Bool.not_true, Bool.false_eq_true, if_false]
  rw [if_neg nonzero]

/-- Any other value is written as zero. -/
theorem plainText_of_zero {x : Float}
    (zero : x.isFinite = true → rounded plainPlaces x = 0) : plainText x = ['0'] := by
  cases finite : x.isFinite with
  | false => simp [plainText, finite]
  | true =>
      simp only [plainText, finite, Bool.not_true, Bool.false_eq_true, if_false]
      rw [if_pos (zero finite)]

/-- The plain form of a finite value is its rounding with a sign, which is the
sign of the value unless it rounds to zero. -/
theorem exists_sign_of_finite {x : Float} (finite : x.isFinite = true) :
    ∃ negative,
      plainText x = signed negative (trimmedText plainPlaces (rounded plainPlaces x)) ∧
        (rounded plainPlaces x ≠ 0 → negative = Binary64.isNegative x) := by
  by_cases zero : rounded plainPlaces x = 0
  · refine ⟨false, ?_, fun nonzero => absurd zero nonzero⟩
    rw [plainText_of_zero fun _ => zero, zero]
    decide +kernel
  · exact ⟨Binary64.isNegative x, plainText_of_finite finite zero, fun _ => rfl⟩

/-- The plain form is a trimmed decimal with a sign. -/
theorem exists_plainText_eq (x : Float) :
    ∃ negative number, plainText x = signed negative (trimmedText plainPlaces number) := by
  by_cases finite : x.isFinite = true
  · obtain ⟨negative, equal, _⟩ := exists_sign_of_finite finite
    exact ⟨negative, rounded plainPlaces x, equal⟩
  · refine ⟨false, 0, ?_⟩
    rw [plainText_of_zero fun isFinite => absurd isFinite finite]
    decide +kernel

/-- What the plain form tells of a value: its rounding, and its sign if it does
not round to zero. -/
theorem plainText_congr {x y : Float} (xFinite : x.isFinite = true)
    (yFinite : y.isFinite = true) (roundedEq : rounded plainPlaces x = rounded plainPlaces y)
    (signEq : rounded plainPlaces y ≠ 0 →
      Binary64.isNegative x = Binary64.isNegative y) :
    plainText x = plainText y := by
  by_cases zero : rounded plainPlaces y = 0
  · rw [plainText_of_zero fun _ => zero, plainText_of_zero fun _ => roundedEq.trans zero]
  · have nonzero : rounded plainPlaces x ≠ 0 := by
      rw [roundedEq]
      exact zero
    rw [plainText_of_finite yFinite zero, plainText_of_finite xFinite nonzero,
      signEq zero, roundedEq]

/-- Both spellings of a value have its plain form as their plain spelling. -/
theorem plain_padText (x : Float) :
    plain (padText x) = plainText x ∧ plain (plainText x) = plainText x := by
  obtain ⟨negative, number, equal⟩ := exists_plainText_eq x
  rw [padText, equal]
  exact plain_map_glyphMinus_signed (isNumeral_trimmedText plainPlaces number).grows.chars
    negative

/-- In the spelling of the pad a value is a complete text. -/
theorem isComplete_padText (x : Float) : Entry.IsComplete (padText x) := by
  obtain ⟨negative, number, equal⟩ := exists_plainText_eq x
  have numeral := isNumeral_trimmedText plainPlaces number
  have zeros := wholeDigits_eq_or_head?_ne plainPlaces number
  rw [padText, equal, map_glyphMinus_signed numeral.grows.chars]
  cases negative with
  | false =>
      rw [if_neg Bool.false_ne_true]
      exact .unsigned numeral zeros
  | true =>
      rw [if_pos rfl]
      apply Entry.IsComplete.signed numeral
      intro digit rest wholeEq
      rw [wholeEq] at zeros
      simp at zeros

/-- A text with the plain form of a value is finished. -/
theorem isUnfinished_eq_false_of_plain {text : Text} {x : Float}
    (plainEq : plain text = plainText x) : isUnfinished text = false := by
  obtain ⟨negative, number, equal⟩ := exists_plainText_eq x
  have numeral := isNumeral_trimmedText plainPlaces number
  have lastDigit := getLast?_trimmedText plainPlaces number
  obtain ⟨first, others, digitsEq⟩ := List.exists_cons_of_ne_nil numeral.grows.ne_nil
  have lastEq : (plain text).getLast? = (trimmedText plainPlaces number).getLast? := by
    rw [plainEq, equal, digitsEq]
    cases negative with
    | false => rfl
    | true => exact List.getLast?_cons_cons
  cases isLast : (trimmedText plainPlaces number).getLast? with
  | none => simp [digitsEq] at isLast
  | some last =>
      have isDigit := lastDigit last isLast
      rw [isUnfinished, lastEq, isLast]
      simp [isSymbol_eq_false_of_isLiteralChar (isLiteralChar_of_isDigit isDigit),
        ne_point_of_isDigit isDigit]

end AmountPad.Amount
