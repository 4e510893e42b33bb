import AmountPad.Settings
import AmountPad.Toml.Writing

/-!
# Settings as an overlay on their defaults

Each known key that a document assigns gives one setting, and each setting without an
assignment keeps its default.  What the document assigns to other keys gives no setting.
-/

namespace AmountPad.Settings

open Toml (Assignment Scalar Value)

/-- What a key is given: the value that some assignment gives it, or, without one, the value
that stands in for it. -/
def Gives {α : Type} (assignments : List Assignment) (key : Text) (scalar : α → Scalar)
    (absent given : α) : Prop :=
  ⟨key, scalar given⟩ ∈ assignments ∨
    given = absent ∧ ∀ assignment ∈ assignments, assignment.key ≠ key

/-- The settings that assignments give, each key by itself. -/
structure IsOverlay (assignments : List Assignment) (settings : Settings) : Prop where
  prompt : Gives assignments "prompt".toList .string "> ".toList settings.prompt
  asciiOperators :
    Gives assignments "ascii_operators".toList .boolean false settings.asciiOperators
  log : Gives assignments "log".toList .string "warn".toList settings.log

/-- A value of the wrong kind for a known key. -/
inductive IsMistyped : Text → Value → Prop where
  | prompt {value : Value} : (∀ text, value ≠ .string text) → IsMistyped "prompt".toList value
  | asciiOperators {value : Value} :
      (∀ flag, value ≠ .boolean flag) → IsMistyped "ascii_operators".toList value
  | log {value : Value} : (∀ text, value ≠ .string text) → IsMistyped "log".toList value

end AmountPad.Settings
