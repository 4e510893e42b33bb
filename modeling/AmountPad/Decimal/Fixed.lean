import AmountPad.Text

/-!
# Decimals written with a fixed number of places

A number of hundredths, or of any power of a tenth, is written with all its
integer digits and exactly as many fraction digits as there are places.  The
trimmed form leaves out the zeros at the end of the fraction, and the point too
when nothing follows it.
-/

namespace AmountPad.Decimal

/-- The last `places` digits of a number, with leading zeros. -/
def fractionDigits : Nat → Nat → Text
  | 0, _ => []
  | places + 1, number =>
      fractionDigits places (number / 10) ++ [Nat.digitChar (number % 10)]

/-- The integer digits of a number of `10 ^ -places`. -/
def wholeDigits (places number : Nat) : Text :=
  Nat.toDigits 10 (number / Nat.pow 10 places)

/-- All places are written. -/
def fixedText (places number : Nat) : Text :=
  wholeDigits places number ++ '.' :: fractionDigits places number

/-- A text without the zeros at its end. -/
def dropTrailingZeros (text : Text) : Text :=
  text.foldr (fun c rest => if c = '0' ∧ rest = [] then [] else c :: rest) []

/-- The places at the end that hold zeros are left out. -/
def trimmedText (places number : Nat) : Text :=
  let fraction := dropTrailingZeros (fractionDigits places number)
  if fraction = [] then wholeDigits places number
  else wholeDigits places number ++ '.' :: fraction

@[simp]
theorem length_fractionDigits (places number : Nat) :
    (fractionDigits places number).length = places := by
  induction places generalizing number with
  | zero => rfl
  | succ places inductionHypothesis =>
      simp [fractionDigits, inductionHypothesis]

@[simp]
theorem dropTrailingZeros_nil : dropTrailingZeros [] = [] :=
  rfl

theorem dropTrailingZeros_cons (c : Char) (text : Text) :
    dropTrailingZeros (c :: text) =
      if c = '0' ∧ dropTrailingZeros text = [] then []
      else c :: dropTrailingZeros text :=
  rfl

/-- Only zeros are dropped. -/
theorem exists_append_dropTrailingZeros (text : Text) :
    ∃ count, text = dropTrailingZeros text ++ List.replicate count '0' := by
  induction text with
  | nil => exact ⟨0, rfl⟩
  | cons c text inductionHypothesis =>
      rcases inductionHypothesis with ⟨count, equal⟩
      rw [dropTrailingZeros_cons]
      split
      · rename_i dropped
        rw [dropped.2, List.nil_append] at equal
        refine ⟨count + 1, ?_⟩
        rw [List.nil_append, List.replicate_succ, ← equal, dropped.1]
      · exact ⟨count, by rw [List.cons_append, ← equal]⟩

/-- No zero is left at the end. -/
theorem getLast?_dropTrailingZeros_ne (text : Text) :
    (dropTrailingZeros text).getLast? ≠ some '0' := by
  induction text with
  | nil => simp
  | cons c text inductionHypothesis =>
      rw [dropTrailingZeros_cons]
      split
      · simp
      · rename_i kept
        cases tail : dropTrailingZeros text with
        | nil => simpa [tail] using kept
        | cons d rest =>
            rw [tail] at inductionHypothesis
            simpa [List.getLast?_cons_cons] using inductionHypothesis

example : fixedText 2 5 = "0.05".toList := by decide
example : trimmedText 3 12500 = "12.5".toList := by decide
example : trimmedText 3 10000 = "10".toList := by decide

end AmountPad.Decimal
