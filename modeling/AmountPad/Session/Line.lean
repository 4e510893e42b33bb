import AmountPad.Pad

/-!
# Lines of keys

An input is a sequence of bytes, cut into lines at line feeds.  A line is UTF-8
text whose characters are keys.  A carriage return before the line feed is a
blank, and blanks are no keys.
-/

namespace AmountPad

/-- What a character of a line does to the pad. -/
def Step.ofChar? (c : Char) : Option Step :=
  if c = '<' then some .erase
  else if c = 'c' || c = 'C' then some .clear
  else if c = '=' then some .confirm
  else if isBlank c then none
  else some (.type c)

namespace Session

/-- The line feed. -/
def lineFeed : UInt8 :=
  10

/-- The lines of an input, without their line feeds.  What follows the last line
feed is a line too, unless it is empty. -/
def lines : List UInt8 → List (List UInt8)
  | [] => []
  | byte :: rest =>
      if byte = lineFeed then [] :: lines rest
      else
        match lines rest with
        | [] => [[byte]]
        | line :: later => (byte :: line) :: later

/-- The text of a line, if its bytes are UTF-8. -/
def decode? (line : List UInt8) : Option Text :=
  (String.fromUTF8? ⟨line.toArray⟩).map String.toList

/-- The steps that the characters of a line stand for. -/
def steps (line : Text) : List Step :=
  line.filterMap Step.ofChar?

/-- What comes of a line. -/
inductive Reply where
  /-- The keys of the line have been pressed. -/
  | taken (pad : Pad)
  /-- The line is blank, and ends the session. -/
  | finished
  /-- The line is not UTF-8. -/
  | unreadable

/-- Takes one line. -/
def reply (pad : Pad) (line : List UInt8) : Reply :=
  match decode? line with
  | none => .unreadable
  | some text =>
      if text.all isBlank then .finished else .taken (pad.run (steps text))

example :
    lines [49, 10, 10, 50] = [[49], [], [50]] ∧ lines [49, 10] = [[49]] := by
  decide

end Session

end AmountPad
