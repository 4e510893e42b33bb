import AmountPad.Outcome
import AmountPad.Session.Line
import AmountPad.Settings

/-!
# Sessions

A session shows a prompt, takes a line of keys, and reports the pad; then it
shows the prompt again.  It ends at a blank line or at the end of the input, and
fails at a line that cannot be read.
-/

namespace AmountPad.Session

/-- The report on a pad: its text and its value, or its last value as an amount
while the text is unfinished, and a notice if there is a fault. -/
def report (settings : Settings) (pad : Pad) : Text :=
  let shown := if settings.asciiOperators then plain pad.entry else pad.entry
  let status :=
    if pad.isUnfinished then
      "  (pending, last value ".toList ++ pad.amountText ++ [')']
    else "  = ".toList ++ Amount.plainText pad.value
  let notice :=
    if pad.fault.isSome then "Error, ".toList ++ Fault.notice ++ ['\n'] else []
  shown ++ status ++ ['\n'] ++ notice

/-- What is printed after a line has been taken. -/
def answer (settings : Settings) (pad : Pad) : Text :=
  report settings pad ++ settings.prompt

/-- What is said of a line that is not UTF-8. -/
def unreadableMessage : Text :=
  "Failed to read from stdin".toList

/-- The rest of a session, with the lines that are still to come. -/
def proceed (settings : Settings) (pad : Pad) : List (List UInt8) → Outcome
  | [] => {}
  | line :: later =>
      match reply pad line with
      | .finished => {}
      | .unreadable => { exit := .failure unreadableMessage }
      | .taken next =>
          (proceed settings next later).after (answer settings next)

/-- A whole session. -/
def run (settings : Settings) (input : List UInt8) : Outcome :=
  (proceed settings {} (lines input)).after settings.prompt

end AmountPad.Session
