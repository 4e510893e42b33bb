import AmountPad.Program

/-!
# Expressions

An expression is a tree with numbers at its leaves.  Its value is found from the
leaves upwards, the left operand before the right one; its program lists the
tree in postfix order.

Running the program of an expression finds the value of the expression, whatever
lies below it on the stack and whatever program follows.
-/

namespace AmountPad

/-- A tree of actions over numbers. -/
inductive Expression where
  | number (value : Float)
  | negate (operand : Expression)
  | binary (operator : Operator) (left right : Expression)
  deriving DecidableEq

namespace Expression

/-- The value, or the first fault met from left to right. -/
def value : Expression → Except EvaluationFault Float
  | number x => .ok x
  | negate operand => operand.value.map fun x => -x
  | binary operator left right =>
      left.value.bind fun x => right.value.bind fun y => operator.compute x y

/-- The postfix order: operands come before what is done to them. -/
def program : Expression → Program
  | number x => [.push x]
  | negate operand => operand.program ++ [.perform .negate]
  | binary operator left right =>
      left.program ++ right.program ++ [.perform (.apply operator)]

/-- The program of an expression leaves its value on top of the stack. -/
theorem execute_program (expression : Expression) (stack : List Float) :
    Program.execute stack expression.program =
      expression.value.map fun x => x :: stack := by
  induction expression generalizing stack with
  | number x => rfl
  | negate operand inductionHypothesis =>
      rw [program, Program.execute_append, inductionHypothesis, value]
      cases operand.value <;> rfl
  | binary operator left right leftHypothesis rightHypothesis =>
      rw [program, Program.execute_append, Program.execute_append, leftHypothesis,
        value]
      cases left.value with
      | error fault => rfl
      | ok x =>
          simp only [Except.map, Except.bind, rightHypothesis]
          cases right.value with
          | error fault => rfl
          | ok y =>
              simp only [Program.execute_cons, Instruction.execute, Action.perform]
              cases operator.compute x y <;> rfl

/-- The program of an expression has the value of the expression. -/
theorem value_program (expression : Expression) :
    expression.program.value = expression.value := by
  rw [Program.value, execute_program]
  cases expression.value <;> rfl

end Expression

end AmountPad
