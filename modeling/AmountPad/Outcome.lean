import AmountPad.Text

/-!
# Outcomes of a run

A run prints an output and ends in success, with a message of what failed, or
with the refusal of its arguments.
-/

namespace AmountPad

/-- How a run ends. -/
inductive Exit where
  | success
  | failure (message : Text)
  | usage
  deriving DecidableEq, Repr

/-- The exit status of the process. -/
def Exit.status : Exit → UInt32
  | success => 0
  | failure _ => 1
  | usage => 2

/-- What a run prints, and how it ends. -/
structure Outcome where
  output : Text := []
  exit : Exit := .success
  deriving DecidableEq, Repr

/-- An outcome with more output in front of it. -/
def Outcome.after (outcome : Outcome) (output : Text) : Outcome :=
  { outcome with output := output ++ outcome.output }

end AmountPad
