import AmountPad.Entry.Language
import AmountPad.Proofs.Spelling
import Mathlib.Data.List.Induction

/-!
# Numerals, one character at a time

A numeral starts with a digit and goes on with digits, with a point after its
digits before the point, and with digits behind the point.  Every step gives a
numeral again, so a numeral can be typed and taken back at its end.
-/

namespace AmountPad.Entry

/-- A numeral as it comes about from left to right. -/
inductive Grows : (whole text : Text) → Prop where
  | first {digit : Char} : digit.isDigit → Grows [digit] [digit]
  | digit {whole} {digit : Char} :
      Grows whole whole → digit.isDigit → Grows (whole ++ [digit]) (whole ++ [digit])
  | point {whole} : Grows whole whole → Grows whole (whole ++ ['.'])
  | fraction {whole text} {digit : Char} :
      Grows whole text → '.' ∈ text → digit.isDigit → Grows whole (text ++ [digit])

theorem Grows.ne_nil {whole text : Text} (grows : Grows whole text) : text ≠ [] := by
  cases grows <;> simp

theorem Grows.chars {whole text : Text} (grows : Grows whole text) :
    ∀ c ∈ text, isLiteralChar c = true := by
  induction grows with
  | first isDigit => simp [isLiteralChar_of_isDigit isDigit]
  | digit _ isDigit inductionHypothesis =>
      simpa [or_imp, forall_and, isLiteralChar_of_isDigit isDigit] using
        inductionHypothesis
  | point _ inductionHypothesis =>
      simpa [or_imp, forall_and] using inductionHypothesis
  | fraction _ _ isDigit inductionHypothesis =>
      simpa [or_imp, forall_and, isLiteralChar_of_isDigit isDigit] using
        inductionHypothesis

/-- A numeral without a point has all its digits before the point. -/
theorem Grows.eq_whole {whole text : Text} (grows : Grows whole text)
    (noPoint : '.' ∉ text) : text = whole := by
  cases grows with
  | first => rfl
  | digit => rfl
  | point => simp at noPoint
  | fraction _ point => exact absurd (List.mem_append_left _ point) noPoint

/-- The digits before the point come about first. -/
theorem Grows.grows_whole {whole text : Text} (grows : Grows whole text) :
    Grows whole whole := by
  induction grows with
  | first isDigit => exact .first isDigit
  | digit grows isDigit _ => exact .digit grows isDigit
  | point grows _ => exact grows
  | fraction _ _ _ inductionHypothesis => exact inductionHypothesis

theorem Grows.isDigit_whole {whole text : Text} (grows : Grows whole text) :
    ∀ c ∈ whole, c.isDigit = true := by
  induction grows with
  | first isDigit => simpa using isDigit
  | digit _ isDigit inductionHypothesis =>
      simpa [or_imp, forall_and, isDigit] using inductionHypothesis
  | point _ inductionHypothesis => exact inductionHypothesis
  | fraction _ _ _ inductionHypothesis => exact inductionHypothesis

theorem grows_of_isDigit {whole : Text} (nonempty : whole ≠ [])
    (digits : ∀ c ∈ whole, c.isDigit = true) : Grows whole whole := by
  induction whole using List.reverseRecOn with
  | nil => exact absurd rfl nonempty
  | append_singleton front last inductionHypothesis =>
      have lastDigit : last.isDigit = true := digits last (by simp)
      have frontDigits : ∀ c ∈ front, c.isDigit = true :=
        fun c member => digits c (List.mem_append_left _ member)
      by_cases isFirst : front = []
      · subst front
        exact .first lastDigit
      · exact .digit (inductionHypothesis isFirst frontDigits) lastDigit

theorem Grows.append_fraction {whole fraction : Text} (grows : Grows whole whole)
    (digits : ∀ c ∈ fraction, c.isDigit = true) :
    Grows whole (whole ++ '.' :: fraction) := by
  induction fraction using List.reverseRecOn with
  | nil => exact .point grows
  | append_singleton front last inductionHypothesis =>
      have lastDigit : last.isDigit = true := digits last (by simp)
      have frontGrows := inductionHypothesis
        fun c member => digits c (List.mem_append_left _ member)
      rw [← List.cons_append, ← List.append_assoc]
      exact .fraction frontGrows (by simp) lastDigit

/-- A numeral has come about from left to right. -/
theorem IsNumeral.grows {whole text : Text} (numeral : IsNumeral whole text) :
    Grows whole text := by
  cases numeral with
  | integer nonempty digits => exact grows_of_isDigit nonempty digits
  | decimal nonempty wholeDigits fractionDigits =>
      exact (grows_of_isDigit nonempty wholeDigits).append_fraction fractionDigits

/-- What comes about from left to right is a numeral. -/
theorem Grows.isNumeral {whole text : Text} (grows : Grows whole text) :
    IsNumeral whole text := by
  have nonempty := grows.grows_whole.ne_nil
  have digits := grows.isDigit_whole
  induction grows with
  | first _ => exact .integer nonempty digits
  | digit _ _ _ => exact .integer nonempty digits
  | point _ _ => exact .decimal nonempty digits (by simp)
  | @fraction whole text digit _ point isDigit inductionHypothesis =>
      cases inductionHypothesis nonempty digits with
      | integer => exact absurd rfl (ne_point_of_isDigit (digits '.' point))
      | @decimal fraction _ _ fractionDigits =>
          rw [List.append_assoc, List.cons_append]
          apply IsNumeral.decimal nonempty digits
          intro c member
          rcases List.mem_append.mp member with inFraction | isLast
          · exact fractionDigits c inFraction
          · rw [List.mem_singleton.mp isLast]
            exact isDigit

end AmountPad.Entry
