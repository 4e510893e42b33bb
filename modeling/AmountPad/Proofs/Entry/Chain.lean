import AmountPad.Calculation
import AmountPad.Expression.Chain
import AmountPad.Proofs.Entry.Open

/-!
# Typed texts as chains

In plain spelling a complete text is a chain of literals, so the editor and the
reader agree on what is well formed.  A typed text that is not complete ends in
an operator, so it is unfinished.
-/

namespace AmountPad.Entry

variable {whole number text : Text}

/-- A numeral is a literal. -/
theorem IsNumeral.isLiteral (numeral : IsNumeral whole number) : IsLiteral number := by
  have chars := numeral.grows.chars
  have noPoint : ∀ {digits : Text}, (∀ c ∈ digits, c.isDigit = true) →
      digits.count '.' = 0 := by
    intro digits areDigits
    rw [List.count_eq_zero]
    exact fun point => ne_point_of_isDigit (areDigits '.' point) rfl
  cases numeral with
  | integer nonempty digits =>
      obtain ⟨first, member⟩ := List.exists_mem_of_ne_nil _ nonempty
      have count : whole.count '.' ≤ 1 :=
        Nat.le_trans (Nat.le_of_eq (noPoint digits)) (Nat.zero_le 1)
      exact ⟨chars, count, first, member, digits first member⟩
  | @decimal fraction nonempty digits fractionDigits =>
      obtain ⟨first, member⟩ := List.exists_mem_of_ne_nil _ nonempty
      have count : (whole ++ '.' :: fraction).count '.' = 1 := by
        rw [List.count_append, List.count_cons_self, noPoint digits,
          noPoint fractionDigits]
      exact ⟨chars, Nat.le_of_eq count, first, List.mem_append_left _ member,
        digits first member⟩

/-- A numeral has only one spelling. -/
theorem IsNumeral.plain_eq (numeral : IsNumeral whole number) : plain number = number :=
  plain_eq_self_of_isLiteralChar numeral.grows.chars

/-- A complete text is a chain. -/
theorem IsComplete.isChain (complete : IsComplete text) : IsChain IsLiteral (plain text) := by
  induction complete with
  | unsigned numeral =>
      rw [numeral.plain_eq]
      exact .operand (.literal numeral.isLiteral)
  | signed numeral =>
      rw [plain_glyph_cons, numeral.plain_eq]
      exact .operand (.negated (.literal numeral.isLiteral))
  | extend operator _ _ numeral inductionHypothesis =>
      rw [plain_append, plain_glyph_cons, numeral.plain_eq]
      exact .extend operator inductionHypothesis (.literal numeral.isLiteral)
  | extendSigned operator _ _ numeral inductionHypothesis =>
      rw [plain_append, plain_glyph_cons, plain_glyph_cons, numeral.plain_eq]
      exact .extend operator inductionHypothesis (.negated (.literal numeral.isLiteral))

/-- A text that ends in an operator is unfinished. -/
theorem isUnfinished_append_glyph (front : Text) (operator : Operator) :
    isUnfinished (front ++ [operator.glyph]) = true := by
  simp [isUnfinished, plain_append]

/-- A typed text that is finished is complete. -/
theorem IsTyped.isComplete_of_finished (typed : IsTyped text)
    (finished : isUnfinished text = false) : IsComplete text := by
  rcases isTyped_iff.mp typed with complete | ⟨isOpen, nonempty⟩
  · exact complete
  · rcases isOpen.eq_nil_or_ends with isEmpty | ⟨front, operator, rfl⟩
    · exact absurd isEmpty nonempty
    · rw [isUnfinished_append_glyph] at finished
      cases finished

end AmountPad.Entry
