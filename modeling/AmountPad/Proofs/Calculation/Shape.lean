import AmountPad.Proofs.Calculation.Answer
import AmountPad.Proofs.Program.Balance
import AmountPad.Proofs.Token.Writing

/-!
# Only chains have a value

A text that is read without a fault is a chain, or the balance of its tokens is
not positive: a number never stands directly behind another, so every number
but the first pays for an operator between two values.  Outside of a chain some
operator is left to pay for, and then an instruction finds no operand, unless
one before it has failed.

Nothing is said of the order in which the operators are carried out, so the
argument does not depend on how they are arranged.
-/

namespace AmountPad

/-! ## Chains from the left -/

section Chains

variable {allowed : Text → Prop} {text first : Text}

/-- A sign in front of a chain belongs to its first operand. -/
theorem IsChain.negated (chain : IsChain allowed text) :
    IsChain allowed (Operator.minus.symbol :: text) := by
  induction chain with
  | operand operand => exact .operand operand.negated
  | extend operator _ operand inductionHypothesis =>
      exact .extend operator inductionHypothesis operand

/-- An operand and an operator in front of a chain make a chain. -/
theorem IsOperand.isChain_append (operand : IsOperand allowed first) (operator : Operator)
    (chain : IsChain allowed text) : IsChain allowed (first ++ operator.symbol :: text) := by
  induction chain with
  | operand last => exact .extend operator (.operand operand) last
  | extend next _ last inductionHypothesis =>
      rw [← List.cons_append, ← List.append_assoc]
      exact .extend next inductionHypothesis last

end Chains

/-- An operand ends in its literal. -/
theorem IsOperand.isLiteralChar_of_getLast? {text : Text} (operand : IsOperand IsLiteral text) :
    ∀ c ∈ text.getLast?, isLiteralChar c = true := by
  induction operand with
  | literal isLiteral =>
      exact fun c isLast => isLiteral.chars c (List.mem_of_getLast? isLast)
  | negated operand inductionHypothesis =>
      rw [List.getLast?_cons_of_ne_nil operand.ne_nil]
      exact inductionHypothesis

/-- A chain ends in the literal of its last operand. -/
theorem IsChain.isLiteralChar_of_getLast? {text : Text} (chain : IsChain IsLiteral text) :
    ∀ c ∈ text.getLast?, isLiteralChar c = true := by
  cases chain with
  | operand operand => exact operand.isLiteralChar_of_getLast?
  | extend operator _ operand =>
      rw [List.getLast?_append_of_ne_nil _ (List.cons_ne_nil _ _),
        List.getLast?_cons_of_ne_nil operand.ne_nil]
      exact operand.isLiteralChar_of_getLast?

/-! ## The balance of a text -/

/-- What may stand behind an operand of a chain. -/
def GoesOn (text : Text) : Prop :=
  text = [] ∨ ∃ (operator : Operator) (rest : Text),
    text = operator.symbol :: rest ∧ IsChain IsLiteral rest

theorem IsLiteral.isChain_append {literal text : Text} (isLiteral : IsLiteral literal)
    (goesOn : GoesOn text) : IsChain IsLiteral (literal ++ text) := by
  rcases goesOn with rfl | ⟨operator, rest, rfl, chain⟩
  · rw [List.append_nil]
    exact .operand (.literal isLiteral)
  · exact (IsOperand.literal isLiteral).isChain_append operator chain

/-- Only a minus can be a sign. -/
theorem Action.ofOperator_of_ne_minus {operator : Operator} (noSign : operator ≠ .minus) :
    ofOperator false operator = apply operator := by
  cases operator with
  | minus => exact absurd rfl noSign
  | plus => rfl
  | times => rfl
  | divide => rfl

/-- Where an operand is due, the balance is that of a chain or not positive.
Behind a number it is one less. -/
theorem Token.Writes.balance_inOrder {text : Text} {tokens : List Token}
    (writes : Writes text tokens) :
    ((Program.inOrder false tokens).balance ≤ 0 ∨
        (Program.inOrder false tokens).balance = 1 ∧ IsChain IsLiteral text) ∧
      (EndsLiteral text →
        (Program.inOrder true tokens).balance < 0 ∨
          (Program.inOrder true tokens).balance = 0 ∧ GoesOn text) := by
  induction writes with
  | nil => exact ⟨.inl (by decide), fun _ => .inr ⟨rfl, .inl rfl⟩⟩
  | @operator text tokens operator _ inductionHypothesis =>
      have due := inductionHypothesis.1
      have binary : (Instruction.perform (.apply operator)).effect = -1 := rfl
      simp only [Program.inOrder, Token.instruction, Token.isNumber, Program.balance_cons,
        Action.ofOperator_true, binary]
      constructor
      · by_cases isSign : operator = .minus
        · subst operator
          have sign : (Instruction.perform (.ofOperator false .minus)).effect = 0 := rfl
          rw [sign, zero_add]
          rcases due with short | ⟨balance, chain⟩
          · exact .inl short
          · exact .inr ⟨balance, chain.negated⟩
        · rw [Action.ofOperator_of_ne_minus isSign, binary]
          rcases due with short | ⟨balance, _⟩
          · exact .inl (by omega)
          · exact .inl (by omega)
      · intro _
        rcases due with short | ⟨balance, chain⟩
        · exact .inl (by omega)
        · exact .inr ⟨by omega, .inr ⟨operator, text, rfl, chain⟩⟩
  | @number literal value text tokens isLiteral _ ends _ inductionHypothesis =>
      have number : (Instruction.push value).effect = 1 := rfl
      simp only [Program.inOrder, Token.instruction, Token.isNumber, Program.balance_cons,
        number]
      constructor
      · rcases inductionHypothesis.2 ends with short | ⟨balance, goesOn⟩
        · exact .inl (by omega)
        · exact .inr ⟨by omega, isLiteral.isChain_append goesOn⟩
      · intro endsInFront
        obtain ⟨first, others, rfl⟩ := List.exists_cons_of_ne_nil isLiteral.ne_nil
        have noChar := endsInFront first rfl
        rw [isLiteral.chars first List.mem_cons_self] at noChar
        cases noChar

/-! ## Faults of instructions -/

/-- Instructions do not have the fault of a program that leaves too many values. -/
theorem Action.perform_ne_notSingle (action : Action) (stack : List Float) :
    action.perform stack ≠ .error .notSingle := by
  unfold perform
  split
  · nofun
  · rename_i operator right left rest
    cases result : operator.compute left right with
    | ok x => nofun
    | error fault =>
        have answer := operator.isAnswer_compute left right
        rw [result] at answer
        intro failed
        cases failed
        cases answer
  · nofun

theorem Program.execute_ne_notSingle (program : Program) (stack : List Float) :
    execute stack program ≠ .error .notSingle := by
  induction program generalizing stack with
  | nil => nofun
  | cons instruction program inductionHypothesis =>
      rw [execute_cons]
      cases first : instruction.execute stack with
      | ok next => exact inductionHypothesis next
      | error fault =>
          intro failed
          cases failed
          cases instruction with
          | push x => cases first
          | perform action => exact action.perform_ne_notSingle stack first

/-- Tokens with a balance that is not positive have a fault of an instruction as
their value. -/
theorem Program.exists_fault_of_balance_nonpos {tokens : List Token} (nonempty : tokens ≠ [])
    (short : (inOrder false tokens).balance ≤ 0) :
    ∃ fault, (ofTokens tokens).value = .error fault ∧ fault ≠ .notSingle := by
  have perm := perm_ofTokens tokens
  have programNonempty : ofTokens tokens ≠ [] := by
    intro isEmpty
    rw [isEmpty, List.nil_perm] at perm
    cases tokens with
    | nil => exact nonempty rfl
    | cons token tokens => cases perm
  rw [← balance_perm perm] at short
  obtain ⟨fault, failed⟩ := exists_execute_eq_error programNonempty short
  refine ⟨fault, by rw [value, failed], ?_⟩
  rintro rfl
  exact execute_ne_notSingle _ _ failed

/-! ## Texts -/

/-- A text that is read but is no chain has a fault of an instruction as its
value. -/
theorem exists_fault_of_not_isChain {text : Text} {tokens : List Token}
    (read : Token.ofText text = .ok tokens) (noChain : ¬ IsChain IsLiteral (plain text)) :
    ∃ fault, calculate text = .error (.evaluation fault) ∧ fault ≠ .notSingle := by
  obtain ⟨writes, nonempty⟩ := Token.ofText_eq_ok_iff.mp read
  have short : (Program.inOrder false tokens).balance ≤ 0 := by
    rcases writes.balance_inOrder.1 with short | ⟨_, chain⟩
    · exact short
    · exact absurd chain noChain
  obtain ⟨fault, valueEq, notSingle⟩ := Program.exists_fault_of_balance_nonpos nonempty short
  refine ⟨fault, ?_, notSingle⟩
  rw [calculate, read]
  simp only [valueEq]

/-- A text with a value is a chain of literals. -/
theorem isChain_of_calculate_eq_ok {text : Text} {value : Float}
    (calculated : calculate text = .ok value) : IsChain IsLiteral (plain text) := by
  by_contra noChain
  obtain ⟨tokens, read, _⟩ := calculate_eq_ok_iff.mp calculated
  obtain ⟨fault, failed, _⟩ := exists_fault_of_not_isChain read noChain
  rw [calculated] at failed
  cases failed

/-- No text is left with too many values: a chain is not, and any other text that is
read has the fault of an instruction. -/
theorem calculate_ne_notSingle (text : Text) :
    calculate text ≠ .error (.evaluation .notSingle) := by
  intro failed
  by_cases chain : IsChain IsLiteral (plain text)
  · rcases chain.calculate_cases with ⟨answer, isAnswer, equal⟩ | ⟨literal, equal⟩
    · rw [failed] at equal
      cases isAnswer with
      | value _ => cases equal
      | divisionByZero => cases equal
      | notFinite => cases equal
    · rw [failed] at equal
      cases equal
  · cases read : Token.ofText text with
    | error fault =>
        rw [calculate, read] at failed
        cases failed
    | ok tokens =>
        obtain ⟨fault, equal, notSingle⟩ := exists_fault_of_not_isChain read chain
        rw [failed] at equal
        cases equal
        exact notSingle rfl

/-- Only chains of literals have a value, and the value is finite.  No text is
left with too many values.  A text that is read without a fault but is no chain
has an operator without an operand, unless a division by zero or a result that is
too large comes first. -/
theorem calculate_shape (text : Text) :
    (∀ value, calculate text = .ok value →
        IsChain IsLiteral (plain text) ∧ value.isFinite = true) ∧
      calculate text ≠ .error (.evaluation .notSingle) ∧
      ∀ tokens, Token.ofText text = .ok tokens → ¬ IsChain IsLiteral (plain text) →
        calculate text = .error (.evaluation .missingOperand) ∨
          calculate text = .error (.evaluation .divisionByZero) ∨
          calculate text = .error (.evaluation .notFinite) := by
  constructor
  · intro value calculated
    have chain := isChain_of_calculate_eq_ok calculated
    exact ⟨chain, chain.isFinite_of_calculate_eq_ok calculated⟩
  constructor
  · exact calculate_ne_notSingle text
  · intro tokens read noChain
    obtain ⟨fault, failed, notSingle⟩ := exists_fault_of_not_isChain read noChain
    rw [failed]
    cases fault with
    | missingOperand => exact .inl rfl
    | divisionByZero => exact .inr (.inl rfl)
    | notFinite => exact .inr (.inr rfl)
    | notSingle => exact absurd rfl notSingle

/-- A division by zero is reported before the operator behind it that has no right
operand.  With an operand in its place and no zero there is a value. -/
theorem calculate_shape_of_division :
    (∃ tokens, Token.ofText "1÷0×".toList = .ok tokens ∧
        ¬ IsChain IsLiteral (plain "1÷0×".toList) ∧
        (calculate "1÷0×".toList = .error (.evaluation .missingOperand) ∨
          calculate "1÷0×".toList = .error (.evaluation .divisionByZero) ∨
          calculate "1÷0×".toList = .error (.evaluation .notFinite))) ∧
      calculate "1÷4×−.5".toList = .ok (-0.125) ∧
      IsChain IsLiteral (plain "1÷4×−.5".toList) := by
  have read : Token.ofText "1÷0×".toList =
      .ok [.number 1, .operator .divide, .number 0, .operator .times] := by
    decide +kernel
  have noChain : ¬ IsChain IsLiteral (plain "1÷0×".toList) := by
    intro chain
    cases chain.isLiteralChar_of_getLast? '*' rfl
  have calculated : calculate "1÷4×−.5".toList = .ok (-0.125) := by decide +kernel
  constructor
  · exact ⟨_, read, noChain, (calculate_shape _).2.2 _ read noChain⟩
  · exact ⟨calculated, ((calculate_shape _).1 _ calculated).1⟩

end AmountPad
