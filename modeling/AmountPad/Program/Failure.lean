import AmountPad.Program

/-!
# Where a program stops

A program stops at the first instruction that cannot be carried out: an action finds
fewer operands than it takes, or an operator has no result for the two that it finds.
A program that runs to its end leaves one value for each number in it, less one for
each operator between two values.
-/

namespace AmountPad

/-- How many operands an action takes. -/
def Action.arity : Action → Nat
  | negate => 1
  | apply _ => 2

namespace Instruction

/-- A number. -/
def isPush : Instruction → Bool
  | push _ => true
  | perform _ => false

/-- An operator between two values. -/
def isApply : Instruction → Bool
  | perform (.apply _) => true
  | _ => false

end Instruction

namespace Program

/-- Everything before some action is carried out, and the action finds fewer operands
than it takes. -/
def IsStarved (program : Program) : Prop :=
  ∃ before action after stack,
    program = before ++ .perform action :: after ∧
      execute [] before = .ok stack ∧ stack.length < action.arity

/-- Everything before some operator is carried out, and the operator has no result for
its operands, of which the right one lies uppermost. -/
def IsRefused (program : Program) (fault : EvaluationFault) : Prop :=
  ∃ before operator after right left rest,
    program = before ++ .perform (.apply operator) :: after ∧
      execute [] before = .ok (right :: left :: rest) ∧
      operator.compute left right = .error fault

end Program

end AmountPad
