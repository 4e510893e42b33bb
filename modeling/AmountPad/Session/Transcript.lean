import Mathlib.Data.List.Infix
import AmountPad.Session

/-!
# Transcripts of sessions

A session can be told without its states.  Its input is cut at the line feeds, and
the lines up to the first that is blank or not UTF-8 are taken.  The keys are the
characters of these lines without the blanks.  Behind each line that is taken stands
a report of what all keys so far make of a new pad.
-/

namespace AmountPad

/-- What a key does to the pad. -/
def Step.ofKey (key : Char) : Step :=
  if key = '<' then .erase
  else if key = 'c' ∨ key = 'C' then .clear
  else if key = '=' then .confirm
  else .type key

namespace Session

/-- The carriage return. -/
def carriageReturn : UInt8 :=
  13

/-- A line without the carriage return at its end. -/
def dropReturn (line : List UInt8) : List UInt8 :=
  if line.getLast? = some carriageReturn then line.dropLast else line

/-- An input cut at its line feeds.  A carriage return in front of a line feed is
dropped with it. -/
def cut (input : List UInt8) : List (List UInt8) :=
  let pieces := input.splitOn lineFeed
  pieces.dropLast.map dropReturn ++ pieces.getLast?.toList

/-- Whether a session goes on behind a line: it is UTF-8 and not blank. -/
def goesOn (line : Option Text) : Bool :=
  line.any fun text => !text.all isBlank

/-- The lines in front of the first that ends the session. -/
def taken (lines : List (List UInt8)) : List Text :=
  ((lines.map decode?).takeWhile goesOn).filterMap id

/-- The first line that ends the session: nothing if there is none, and no text if
it is not UTF-8. -/
def stop? (lines : List (List UInt8)) : Option (Option Text) :=
  (lines.map decode?).find? fun line => !goesOn line

/-- The keys among the characters of a text. -/
def keys (text : Text) : Text :=
  text.filter fun c => !isBlank c

/-- What some keys make of a new pad. -/
def padAfter (keys : Text) : Pad :=
  Pad.run {} (keys.map Step.ofKey)

/-- The reports of a session, one behind each line that is taken. -/
def reports (settings : Settings) (lines : List (List UInt8)) : List Text :=
  (taken lines).inits.tail.map fun soFar => report settings (padAfter (keys soFar.flatten))

/-- The UTF-8 bytes of a text. -/
def encode (text : Text) : List UInt8 :=
  text.flatMap String.utf8EncodeChar

/-- The UTF-8 bytes of some lines, with a line feed behind each. -/
def encodeLines (lines : List Text) : List UInt8 :=
  lines.flatMap fun line => encode line ++ [lineFeed]

example :
    cut [49, 13, 13, 10, 50, 13] = [[49, 13], [50, 13]] ∧ cut [49, 10] = [[49], []] := by
  decide

end Session

end AmountPad
