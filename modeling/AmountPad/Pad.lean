import AmountPad.Amount
import AmountPad.Calculation
import AmountPad.Entry

/-!
# The pad

A pad keeps the text being typed beside the last value that the text had, so
that a number can be shown while the text is unfinished.  A text without a value
is noted as a fault only when its value is asked for, and the fault stays until
the text has a value again.
-/

namespace AmountPad

/-- The state of a pad. -/
structure Pad where
  /-- The text being typed. -/
  entry : Text := Entry.zero
  /-- The last value that a text had. -/
  value : Float := 0
  /-- The fault of the last confirmation, until the text has a value. -/
  fault : Option Fault := none

/-- What can be done to a pad. -/
inductive Step where
  | type (c : Char)
  | erase
  | clear
  | confirm
  deriving DecidableEq, Repr

namespace Pad

/-- The value of the text, or why it has none. -/
def outcome (pad : Pad) : Except Fault Float :=
  calculateFinished pad.entry

/-- Takes the value of the text, if it has one. -/
def refresh (pad : Pad) : Pad :=
  match pad.outcome with
  | .ok value => { pad with value, fault := none }
  | .error _ => pad

/-- Types a character. -/
def type (pad : Pad) (c : Char) : Pad :=
  refresh { pad with entry := Entry.type pad.entry c }

/-- Takes the last character back. -/
def erase (pad : Pad) : Pad :=
  refresh { pad with entry := Entry.erase pad.entry }

/-- Puts the value in the place of the text, or notes why there is none. -/
def confirm (pad : Pad) : Pad :=
  match pad.outcome with
  | .ok value => { entry := Amount.padText value, value }
  | .error fault => { pad with fault := some fault }

/-- The pad after a step. -/
def apply (pad : Pad) : Step → Pad
  | .type c => pad.type c
  | .erase => pad.erase
  | .clear => {}
  | .confirm => pad.confirm

/-- The pad after some steps. -/
def run (pad : Pad) (steps : List Step) : Pad :=
  steps.foldl apply pad

/-- Whether the text waits for its next character. -/
def isUnfinished (pad : Pad) : Bool :=
  AmountPad.isUnfinished pad.entry

/-- The last value as an amount. -/
def amountText (pad : Pad) : Text :=
  Amount.centsText pad.value

@[simp]
theorem run_nil (pad : Pad) : pad.run [] = pad :=
  rfl

@[simp]
theorem run_cons (pad : Pad) (step : Step) (steps : List Step) :
    pad.run (step :: steps) = (pad.apply step).run steps :=
  rfl

theorem run_append (pad : Pad) (first second : List Step) :
    pad.run (first ++ second) = (pad.run first).run second := by
  simp [run]

end Pad

end AmountPad
