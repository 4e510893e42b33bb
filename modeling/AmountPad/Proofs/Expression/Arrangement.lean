import AmountPad.Expression.Grammar
import AmountPad.Program.Arrangement
import AmountPad.Proofs.Span

/-!
# Arranging the tokens of an expression

Taking in the tokens of an expression without parentheses builds its program
from two sides: a first part has gone out, and the actions of the rest are held
back until something comes that binds less tightly.

At the end of the tokens the two parts make up the whole program.  The program
in turn determines the tree, so no two such expressions share their tokens.
-/

namespace AmountPad

namespace Action

/-- Nothing that is held goes out before a sign. -/
@[simp]
theorem precedes_negate (held : Action) : held.precedes negate = false := by
  rcases held with _ | operator
  · rfl
  · cases operator <;> rfl

/-- What binds at least as tightly as a binary operator goes out before it. -/
theorem precedes_apply (held : Action) (operator : Operator) :
    held.precedes (apply operator) = decide ((apply operator).rank ≤ held.rank) := by
  rcases held with _ | heldOperator
  · cases operator <;> rfl
  · cases heldOperator <;> cases operator <;> rfl

@[simp]
theorem ofOperator_true (operator : Operator) :
    ofOperator true operator = apply operator := by
  cases operator <;> rfl

end Action

/-- A binary operator sends out everything pending that binds as tightly, if
what is below that binds less tightly. -/
theorem Arrangement.add_operator_of_tight {operator : Operator}
    {done : List Instruction} {pending held : List Action}
    (tight : ∀ action ∈ pending, (Action.apply operator).rank ≤ action.rank)
    (blocked : ∀ action ∈ held.head?, action.rank < (Action.apply operator).rank) :
    Arrangement.add ⟨done, pending ++ held, true⟩ (.operator operator) =
      ⟨(pending.map Instruction.perform).reverse ++ done,
        .apply operator :: held, false⟩ := by
  have leaves : ∀ action ∈ pending,
      action.precedes (.apply operator) = true := by
    intro action member
    rw [Action.precedes_apply]
    exact decide_eq_true (tight action member)
  have stays : ∀ action ∈ held.head?,
      action.precedes (.apply operator) = false := by
    intro action isFirst
    rw [Action.precedes_apply]
    exact decide_eq_false (Nat.not_le_of_lt (blocked action isFirst))
  simp only [Arrangement.add, Action.ofOperator_true,
    takeWhile_append_of_ends leaves stays, dropWhile_append_of_ends leaves stays]

namespace Expression

/-- The tokens of an expression are taken in over the actions `held` without
any of these going out.  What is pending afterwards binds at least as tightly
as `rank`, and completes the program. -/
def Arranges (rank : Nat) (expression : Expression) (held : List Action) : Prop :=
  ∃ out pending,
    expression.program = out ++ pending.map .perform ∧
      (∀ action ∈ pending, rank ≤ action.rank) ∧
      ∀ done,
        expression.tokens.foldl Arrangement.add ⟨done, held, false⟩ =
          ⟨out.reverse ++ done, pending ++ held, true⟩

theorem Arranges.mono {lower rank : Nat} {expression : Expression}
    {held : List Action} (lessTight : lower ≤ rank)
    (arranges : Arranges rank expression held) :
    Arranges lower expression held := by
  rcases arranges with ⟨out, pending, programEq, tight, taken⟩
  exact ⟨out, pending, programEq,
    fun action member => Nat.le_trans lessTight (tight action member), taken⟩

/-- The right operand is taken in over the operator. -/
theorem Arranges.binary {operator : Operator} {left right : Expression}
    {held : List Action} {rank : Nat}
    (rankEq : (Action.apply operator).rank = rank)
    (leftArranges : Arranges rank left held)
    (rightArranges : Arranges rank right (.apply operator :: held))
    (blocked : ∀ action ∈ held.head?, action.rank < rank) :
    Arranges rank (binary operator left right) held := by
  subst rank
  rcases leftArranges with ⟨leftOut, leftPending, leftEq, leftTight, leftTaken⟩
  rcases rightArranges with
    ⟨rightOut, rightPending, rightEq, rightTight, rightTaken⟩
  refine ⟨left.program ++ rightOut, rightPending ++ [.apply operator], ?_, ?_, ?_⟩
  · simp [program, rightEq]
  · intro action member
    rcases List.mem_append.mp member with inRight | isOperator
    · exact rightTight action inRight
    · exact Nat.le_of_eq (congrArg Action.rank (List.mem_singleton.mp isOperator).symm)
  · intro done
    rw [tokens, List.foldl_append, leftTaken, List.foldl_cons,
      Arrangement.add_operator_of_tight leftTight blocked, rightTaken]
    simp [leftEq]

/-- The signs of a factor are all pending behind its number. -/
theorem IsFactor.arranges {expression : Expression} (isFactor : expression.IsFactor)
    (held : List Action) : Arranges 3 expression held := by
  induction isFactor generalizing held with
  | number x => exact ⟨[.push x], [], rfl, by simp, fun done => rfl⟩
  | negate _ inductionHypothesis =>
      rcases inductionHypothesis (.negate :: held) with
        ⟨out, pending, programEq, tight, taken⟩
      refine ⟨out, pending ++ [.negate], ?_, ?_, ?_⟩
      · simp [program, programEq]
      · intro action member
        rcases List.mem_append.mp member with inOperand | isSign
        · exact tight action inOperand
        · rw [List.mem_singleton.mp isSign]
          exact Nat.le_refl 3
      · intro done
        have sign : Arrangement.add ⟨done, held, false⟩ (.operator .minus) =
            ⟨done, .negate :: held, false⟩ := by
          cases held <;> simp [Arrangement.add, Action.ofOperator]
        rw [tokens, List.foldl_cons, sign, taken]
        simp

theorem IsProduct.arranges {expression : Expression}
    (isProduct : expression.IsProduct) {held : List Action}
    (blocked : ∀ action ∈ held.head?, action.rank < 2) :
    Arranges 2 expression held := by
  induction isProduct with
  | factor isFactor => exact (isFactor.arranges held).mono (by decide)
  | times _ isFactor inductionHypothesis =>
      exact .binary rfl inductionHypothesis
        ((isFactor.arranges _).mono (by decide)) blocked
  | divide _ isFactor inductionHypothesis =>
      exact .binary rfl inductionHypothesis
        ((isFactor.arranges _).mono (by decide)) blocked

theorem IsSum.arranges {expression : Expression} (isSum : expression.IsSum) :
    Arranges 1 expression [] := by
  induction isSum with
  | product isProduct => exact (isProduct.arranges (by simp)).mono (by decide)
  | plus _ isProduct inductionHypothesis =>
      exact .binary rfl inductionHypothesis
        ((isProduct.arranges (by simp [Action.rank])).mono (by decide)) (by simp)
  | minus _ isProduct inductionHypothesis =>
      exact .binary rfl inductionHypothesis
        ((isProduct.arranges (by simp [Action.rank])).mono (by decide)) (by simp)

/-- The tokens of a sum are arranged into its program. -/
theorem IsSum.program_ofTokens {expression : Expression} (isSum : expression.IsSum) :
    Program.ofTokens expression.tokens = expression.program := by
  rcases isSum.arranges with ⟨out, pending, programEq, _, taken⟩
  rw [Program.ofTokens, Arrangement.ofTokens, taken, programEq]
  simp [Arrangement.program]

/-- The program of an expression can be told from what stands before it, and
determines the expression. -/
theorem append_program_inj {expression other : Expression} {before before' : Program}
    (equal : before ++ expression.program = before' ++ other.program) :
    before = before' ∧ expression = other := by
  induction expression generalizing before before' other with
  | number x =>
      cases other <;>
        simp_all [program, ← List.append_assoc, List.append_singleton_inj]
  | negate operand inductionHypothesis =>
      cases other with
      | negate otherOperand =>
          simp only [program, ← List.append_assoc, List.append_singleton_inj] at equal
          rcases inductionHypothesis equal.1 with ⟨beforeEq, rfl⟩
          exact ⟨beforeEq, rfl⟩
      | number => simp [program, ← List.append_assoc, List.append_singleton_inj] at equal
      | binary => simp [program, ← List.append_assoc, List.append_singleton_inj] at equal
  | binary operator left right leftHypothesis rightHypothesis =>
      cases other with
      | binary otherOperator otherLeft otherRight =>
          simp only [program, ← List.append_assoc, List.append_singleton_inj,
            Instruction.perform.injEq, Action.apply.injEq] at equal
          rcases equal with ⟨operands, rfl⟩
          rcases rightHypothesis operands with ⟨leftOperands, rfl⟩
          rcases leftHypothesis leftOperands with ⟨beforeEq, rfl⟩
          exact ⟨beforeEq, rfl⟩
      | number => simp [program, ← List.append_assoc, List.append_singleton_inj] at equal
      | negate => simp [program, ← List.append_assoc, List.append_singleton_inj] at equal

/-- Different trees have different programs. -/
theorem program_injective : Function.Injective program := by
  intro first second equal
  have appended : [] ++ first.program = [] ++ second.program := congrArg ([] ++ ·) equal
  exact (append_program_inj appended).2

/-- Sums with the same tokens are the same tree. -/
theorem IsSum.eq_of_tokens_eq {first second : Expression} (firstSum : first.IsSum)
    (secondSum : second.IsSum) (equal : first.tokens = second.tokens) :
    first = second := by
  have programs : [] ++ first.program = [] ++ second.program := by
    rw [← firstSum.program_ofTokens, ← secondSum.program_ofTokens, equal]
  exact (append_program_inj programs).2

end Expression

end AmountPad
