import AmountPad.Calculation
import AmountPad.Proofs.Expression.Spelling

/-!
# The value of a chain

A text whose plain spelling is a chain of finite operands has one syntax tree:
signs bind to their literal, products bind tighter than sums, and both group to
the left.  Calculating the text gives what the tree gives, a value or the first
fault from left to right.
-/

namespace AmountPad

/-- A text that spells a sum has the outcome of the sum. -/
theorem Spells.calculate_eq {text : Text} {expression : Expression}
    (spells : Spells (plain text) expression) (isSum : expression.IsSum) :
    calculate text = expression.value.mapError .evaluation := by
  rw [calculate, spells.ofText_eq]
  simp only [isSum.program_ofTokens, expression.value_program]
  cases expression.value <;> rfl

/-- A chain of finite operands has exactly one syntax tree, and calculating the
chain is calculating the tree. -/
theorem calculate_eq_value_of_isChain {text : Text}
    (chain : IsChain IsFiniteLiteral (plain text)) :
    ∃ expression : Expression,
      (expression.IsSum ∧ Spells (plain text) expression) ∧
        (∀ other : Expression,
          other.IsSum ∧ Spells (plain text) other → other = expression) ∧
        calculate text = expression.value.mapError .evaluation := by
  obtain ⟨expression, isSum, spells⟩ := chain.exists_spells
  have unique : ∀ other : Expression,
      other.IsSum ∧ Spells (plain text) other → other = expression := by
    rintro other ⟨otherSum, otherSpells⟩
    exact otherSpells.eq_of_isSum otherSum spells isSum
  exact ⟨expression, ⟨isSum, spells⟩, unique, spells.calculate_eq isSum⟩

/-- A sign after an operator belongs to the literal behind it. -/
theorem calculate_eq_value_of_signed_factor :
    IsChain IsFiniteLiteral (plain "8 − 2.5×−−3".toList) ∧
      ∃ expression : Expression,
        (expression.IsSum ∧ Spells (plain "8 − 2.5×−−3".toList) expression) ∧
          (∀ other : Expression,
            other.IsSum ∧ Spells (plain "8 − 2.5×−−3".toList) other →
              other = expression) ∧
          calculate "8 − 2.5×−−3".toList =
            expression.value.mapError .evaluation := by
  have finite : ∀ literal ∈ ["8".toList, "2.5".toList, "3".toList],
      IsFiniteLiteral literal := by
    intro literal member
    simp only [List.mem_cons, List.not_mem_nil, or_false] at member
    rcases member with rfl | rfl | rfl
    all_goals decide +kernel
  have eight : IsChain IsFiniteLiteral "8".toList :=
    .operand (.literal (finite _ (by simp)))
  have difference : IsChain IsFiniteLiteral "8-2.5".toList :=
    .extend .minus eight (.literal (finite "2.5".toList (by simp)))
  have chain : IsChain IsFiniteLiteral (plain "8 − 2.5×−−3".toList) :=
    .extend .times difference
      (.negated (.negated (.literal (finite "3".toList (by simp)))))
  exact ⟨chain, calculate_eq_value_of_isChain chain⟩

end AmountPad
