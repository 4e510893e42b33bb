import AmountPad.Text

/-!
# Faults

What can go wrong between a typed text and its value.  A reading fault comes
from the characters, an evaluation fault from the numbers and operators, and a
text that still waits for its next character is unfinished.
-/

namespace AmountPad

/-- Why a text does not split into tokens. -/
inductive ReadingFault where
  | emptyText
  | unexpectedChar (c : Char)
  | extraPoint (literal : Text)
  | lonePoint
  | tooLarge (literal : Text)
  deriving DecidableEq, Repr

/-- Why a sequence of instructions has no value. -/
inductive EvaluationFault where
  | missingOperand
  | divisionByZero
  | notFinite
  | notSingle
  deriving DecidableEq, Repr

/-- Why a text has no value. -/
inductive Fault where
  | reading (fault : ReadingFault)
  | evaluation (fault : EvaluationFault)
  | unfinished
  deriving DecidableEq, Repr

/-- A text in single quotes. -/
def quoted (text : Text) : Text :=
  '\'' :: text ++ ['\'']

/-- The wording of a reading fault. -/
def ReadingFault.message : ReadingFault → Text
  | emptyText => "expression is empty".toList
  | unexpectedChar c =>
      "invalid character, ".toList ++ quoted [c] ++ ", encountered".toList
  | extraPoint literal => quoted literal ++ " has more than one decimal point".toList
  | lonePoint => "a decimal point needs at least one digit".toList
  | tooLarge literal => quoted literal ++ " is not a finite number".toList

/-- The wording of an evaluation fault. -/
def EvaluationFault.message : EvaluationFault → Text
  | missingOperand => "an operator is missing an operand".toList
  | divisionByZero => "division by zero".toList
  | notFinite => "result is not a finite number".toList
  | notSingle => "expression does not reduce to a single value".toList

namespace Fault

/-- The wording of a fault. -/
def message : Fault → Text
  | reading fault => fault.message
  | evaluation fault => fault.message
  | unfinished => "expression is still being typed".toList

/-- What the user is told, whatever the fault. -/
def notice : Text :=
  "Invalid expression".toList

end Fault

end AmountPad
