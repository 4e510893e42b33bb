import AmountPad.Fault
import AmountPad.Operator

/-!
# Programs for the value stack

A program is a sequence of instructions in postfix order.  Each one pushes a
number or replaces the operands at the top of a stack of values by a result.  A
program has a value when it leaves exactly one.
-/

namespace AmountPad

/-- What an operator does once it is known as unary or binary. -/
inductive Action where
  | negate
  | apply (operator : Operator)
  deriving DecidableEq, Repr

/-- One step of a program. -/
inductive Instruction where
  | push (value : Float)
  | perform (action : Action)
  deriving DecidableEq

/-- Instructions in postfix order. -/
abbrev Program := List Instruction

/-- A result has to be finite. -/
def finite (x : Float) : Except EvaluationFault Float :=
  if x.isFinite then .ok x else .error .notFinite

/-- The result of a binary operator.  Division by either zero is refused before
it is tried. -/
def Operator.compute : Operator → Float → Float → Except EvaluationFault Float
  | .plus, left, right => finite (left + right)
  | .minus, left, right => finite (left - right)
  | .times, left, right => finite (left * right)
  | .divide, left, right =>
      if right == 0 then .error .divisionByZero else finite (left / right)

/-- Replaces the operands at the top of the stack, the right one uppermost. -/
def Action.perform : Action → List Float → Except EvaluationFault (List Float)
  | .negate, value :: rest => .ok (-value :: rest)
  | .apply operator, right :: left :: rest =>
      (operator.compute left right).map (· :: rest)
  | _, _ => .error .missingOperand

/-- The effect of one instruction on the stack. -/
def Instruction.execute (stack : List Float) :
    Instruction → Except EvaluationFault (List Float)
  | .push value => .ok (value :: stack)
  | .perform action => action.perform stack

namespace Program

/-- The stack after all instructions, or the first fault. -/
def execute (stack : List Float) (program : Program) :
    Except EvaluationFault (List Float) :=
  program.foldlM Instruction.execute stack

/-- The value of a program. -/
def value (program : Program) : Except EvaluationFault Float :=
  match program.execute [] with
  | .ok [x] => .ok x
  | .ok _ => .error .notSingle
  | .error fault => .error fault

@[simp]
theorem execute_nil (stack : List Float) : execute stack [] = .ok stack :=
  rfl

theorem execute_cons (stack : List Float) (instruction : Instruction)
    (program : Program) :
    execute stack (instruction :: program) =
      (instruction.execute stack).bind fun next => execute next program :=
  rfl

/-- A program runs through its parts in turn. -/
theorem execute_append (stack : List Float) (first second : Program) :
    execute stack (first ++ second) =
      (execute stack first).bind fun next => execute next second := by
  simp only [execute, List.foldlM_append]
  rfl

end Program

end AmountPad
