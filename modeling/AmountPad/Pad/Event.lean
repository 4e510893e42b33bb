import AmountPad.Pad

/-!
# What a history gives to a pad

A step gives a value if it leads to a text that has one, or puts the value in the
place of a text; clearing gives zero.  What a step gives depends on the text alone.
A run is quiet if none of its steps gives a value.
-/

namespace AmountPad

/-- What a step gives when it is taken with a text. -/
inductive Step.Gives : Step → Text → Float → Prop where
  | type {text c value} :
      calculateFinished (Entry.type text c) = .ok value → Gives (.type c) text value
  | erase {text value} :
      calculateFinished (Entry.erase text) = .ok value → Gives .erase text value
  | clear {text} : Gives .clear text 0
  | confirm {text value} :
      calculateFinished text = .ok value → Gives .confirm text value

/-- No step of a run gives a value. -/
def Pad.IsQuiet (pad : Pad) (steps : List Step) : Prop :=
  ∀ earlier step later, steps = earlier ++ step :: later →
    ∀ value, ¬ step.Gives (pad.run earlier).entry value

end AmountPad
