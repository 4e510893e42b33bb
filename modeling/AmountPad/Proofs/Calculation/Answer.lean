import AmountPad.Proofs.Binary64.Bits
import AmountPad.Proofs.Calculation.Tree

/-!
# What a chain can answer

Numbers are read as finite doubles, and every step of a calculation keeps them
finite or ends it.  A chain of literals therefore has a finite value, unless one
of its literals is too large, a divisor is zero, or a result is too large.

The reader and the evaluator have other faults, but no chain meets them.
-/

namespace AmountPad

/-- The outcomes of a tree with finite numbers: a finite value, or a fault of an
operation on numbers. -/
inductive IsAnswer : Except EvaluationFault Float → Prop where
  | value {x : Float} : x.isFinite = true → IsAnswer (.ok x)
  | divisionByZero : IsAnswer (.error .divisionByZero)
  | notFinite : IsAnswer (.error .notFinite)

theorem isAnswer_finite (x : Float) : IsAnswer (finite x) := by
  unfold finite
  split
  · rename_i isFinite
    exact .value isFinite
  · exact .notFinite

/-- A binary operator answers, whatever its operands are. -/
theorem Operator.isAnswer_compute (operator : Operator) (left right : Float) :
    IsAnswer (operator.compute left right) := by
  cases operator with
  | plus => exact isAnswer_finite _
  | minus => exact isAnswer_finite _
  | times => exact isAnswer_finite _
  | divide =>
      simp only [compute]
      split
      · exact .divisionByZero
      · exact isAnswer_finite _

/-- What comes after an answer is another one, or the fault of the first. -/
theorem IsAnswer.bind {first : Except EvaluationFault Float}
    {next : Float → Except EvaluationFault Float} (answer : IsAnswer first)
    (nextAnswer : ∀ x : Float, x.isFinite = true → IsAnswer (next x)) :
    IsAnswer (first.bind next) := by
  cases answer with
  | value isFinite => exact nextAnswer _ isFinite
  | divisionByZero => exact .divisionByZero
  | notFinite => exact .notFinite

/-- A tree that a text spells has finite numbers, so it answers. -/
theorem Spells.isAnswer_value {text : Text} {expression : Expression}
    (spells : Spells text expression) : IsAnswer expression.value := by
  induction spells with
  | number _ valueEq => exact .value (Binary64.nearest?_spec valueEq).1
  | negate _ inductionHypothesis =>
      exact inductionHypothesis.bind fun x isFinite =>
        .value (Binary64.isFinite_neg isFinite)
  | binary operator _ _ leftHypothesis rightHypothesis =>
      exact leftHypothesis.bind fun x _ =>
        rightHypothesis.bind fun y _ => operator.isAnswer_compute x y

/-! ## Literals that are too large -/

/-- Reading ends with a literal of the text that is too large, whatever follows
the text. -/
def EndsTooLarge (text literal : Text) : Prop :=
  ∀ rest, EndsLiteral rest →
    (Token.readAll (text ++ rest)).mapM id = .error (.tooLarge literal)

/-- What follows the text is not read. -/
theorem EndsTooLarge.append_symbol {text literal : Text}
    (ends : EndsTooLarge text literal) (operator : Operator) (last : Text) :
    EndsTooLarge (text ++ operator.symbol :: last) literal := by
  intro rest _
  rw [List.append_assoc, List.cons_append]
  exact ends _ (endsLiteral_symbol_cons operator _)

/-- An operator in front of the text is read first. -/
theorem EndsTooLarge.symbol_cons {text literal : Text}
    (ends : EndsTooLarge text literal) (operator : Operator) :
    EndsTooLarge (operator.symbol :: text) literal := by
  intro rest endsLiteral
  have read := Token.mapM_tokens_append [.operator operator]
    (Token.readAll (text ++ rest))
  rw [List.cons_append, Token.readAll_of_next? (Token.next?_symbol _ _)]
  rw [ends rest endsLiteral] at read
  exact read

/-- A text that spells an expression is read before what follows it. -/
theorem EndsTooLarge.spells_append {text last literal : Text} {expression : Expression}
    (spells : Spells text expression) (operator : Operator)
    (ends : EndsTooLarge last literal) :
    EndsTooLarge (text ++ operator.symbol :: last) literal := by
  intro rest endsLiteral
  rw [List.append_assoc, List.cons_append,
    spells.readAll_append (endsLiteral_symbol_cons operator _),
    Token.mapM_tokens_append, ← List.cons_append,
    ends.symbol_cons operator rest endsLiteral]
  rfl

/-- The literal of an operand is finite, or reading ends with it. -/
theorem IsOperand.finite_or_endsTooLarge {text : Text} (operand : IsOperand IsLiteral text) :
    IsOperand IsFiniteLiteral text ∨ ∃ literal, EndsTooLarge text literal := by
  induction operand with
  | @literal literal isLiteral =>
      cases valueEq : (Decimal.ofLiteral literal).toFloat? with
      | some value =>
          left
          exact .literal ⟨isLiteral, by rw [valueEq]; rfl⟩
      | none =>
          right
          have ends : EndsTooLarge literal literal := by
            intro rest endsLiteral
            have read := Token.next?_literal isLiteral endsLiteral
            simp only [Token.ofLiteral_of_isLiteral isLiteral, valueEq] at read
            rw [Token.readAll_of_next? read]
            rfl
          exact ⟨literal, ends⟩
  | negated _ inductionHypothesis =>
      rcases inductionHypothesis with operand | ⟨literal, ends⟩
      · exact .inl (.negated operand)
      · exact .inr ⟨literal, ends.symbol_cons .minus⟩

/-- The literals of a chain are finite, or reading ends with one of them. -/
theorem IsChain.finite_or_endsTooLarge {text : Text} (chain : IsChain IsLiteral text) :
    IsChain IsFiniteLiteral text ∨ ∃ literal, EndsTooLarge text literal := by
  induction chain with
  | operand operand => exact operand.finite_or_endsTooLarge.imp_left .operand
  | extend operator _ operand inductionHypothesis =>
      rcases inductionHypothesis with chain | ⟨literal, ends⟩
      · rcases operand.finite_or_endsTooLarge with operand | ⟨literal, ends⟩
        · exact .inl (.extend operator chain operand)
        · obtain ⟨expression, _, spells⟩ := chain.exists_spells
          exact .inr ⟨literal, .spells_append spells operator ends⟩
      · exact .inr ⟨literal, ends.append_symbol operator _⟩

theorem IsOperand.ne_nil {text : Text} (operand : IsOperand IsLiteral text) : text ≠ [] := by
  cases operand with
  | literal isLiteral => exact isLiteral.ne_nil
  | negated => simp

theorem IsChain.ne_nil {text : Text} (chain : IsChain IsLiteral text) : text ≠ [] := by
  cases chain with
  | operand operand => exact operand.ne_nil
  | extend => simp

/-! ## Chains -/

/-- Calculating a chain of literals gives an answer of its tree, or reports a
literal that is too large. -/
theorem IsChain.calculate_cases {text : Text} (chain : IsChain IsLiteral (plain text)) :
    (∃ answer, IsAnswer answer ∧ calculate text = answer.mapError .evaluation) ∨
      ∃ literal, calculate text = .error (.reading (.tooLarge literal)) := by
  rcases chain.finite_or_endsTooLarge with finiteChain | ⟨literal, ends⟩
  · obtain ⟨expression, isSum, spells⟩ := finiteChain.exists_spells
    exact .inl ⟨expression.value, spells.isAnswer_value, spells.calculate_eq isSum⟩
  · right
    have read := ends [] endsLiteral_nil
    rw [List.append_nil] at read
    have calculated : calculate text = .error (.reading (.tooLarge literal)) := by
      rw [calculate, Token.ofText, if_neg chain.ne_nil, read]
    exact ⟨literal, calculated⟩

/-- The value of a chain of literals is finite. -/
theorem IsChain.isFinite_of_calculate_eq_ok {text : Text} {value : Float}
    (chain : IsChain IsLiteral (plain text)) (calculated : calculate text = .ok value) :
    value.isFinite = true := by
  rcases chain.calculate_cases with ⟨answer, isAnswer, equal⟩ | ⟨literal, equal⟩
  · rw [calculated] at equal
    cases isAnswer with
    | value isFinite =>
        cases equal
        exact isFinite
    | divisionByZero => cases equal
    | notFinite => cases equal
  · rw [calculated] at equal
    cases equal

end AmountPad
