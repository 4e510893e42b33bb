import AmountPad.Token

/-!
# Reading a text where it is stored

A text is stored as a string, which holds its characters as bytes in UTF-8.  A cursor is a
string with the byte at which reading goes on.  It is moved on by numbers of bytes, and what
lies between two bytes is a text only where both are boundaries between characters.  A cut
anywhere else stops the reading altogether.

A call of `Cursor.next` answers with one item, or with none at the end of the string.
-/

namespace AmountPad

/-- Two bytes between which a string cannot be cut out. -/
structure BadCut where
  first : String.Pos.Raw
  last : String.Pos.Raw
  deriving DecidableEq, Repr

/-- The text between two bytes of a string.  Both have to be boundaries between characters, the
end of the string included, and in order. -/
def textBetween (string : String) (first last : String.Pos.Raw) : Except BadCut Text :=
  if bounds : first.IsValid string ∧ last.IsValid string ∧ first ≤ last then
    .ok (string.extract (string.pos first bounds.1) (string.pos last bounds.2.1)).toList
  else .error ⟨first, last⟩

/-- The second byte of `é` is inside a character. -/
example : textBetween "aé" ⟨0⟩ ⟨2⟩ = .error ⟨⟨0⟩, ⟨2⟩⟩ :=
  rfl

/-- A string and the byte at which reading goes on. -/
structure Cursor where
  string : String
  index : String.Pos.Raw

namespace Cursor

/-- The cursor in front of the plain spelling of a text. -/
def ofText (text : Text) : Cursor where
  string := String.ofList (plain text)
  index := 0

/-- The cursor some bytes further on. -/
def advance (cursor : Cursor) (bytes : Nat) : Cursor :=
  { cursor with index := cursor.index.increaseBy bytes }

/-- The cursor at the end of its string. -/
def finish (cursor : Cursor) : Cursor :=
  { cursor with index := cursor.string.rawEndPos }

/-- What is left to read. -/
def unread (cursor : Cursor) : Except BadCut Text :=
  textBetween cursor.string cursor.index cursor.string.rawEndPos

/-- How many characters follow that have a property. -/
def countWhile (p : Char → Bool) (cursor : Cursor) : Except BadCut Nat := do
  let rest ← cursor.unread
  return (rest.takeWhile p).length

/-- Reads the run of digits and points that follows.  The number of its characters is taken for
the number of its bytes. -/
def readRun (cursor : Cursor) : Except BadCut (Except ReadingFault Token × Cursor) := do
  let count ← cursor.countWhile isLiteralChar
  let behind := cursor.advance count
  let run ← textBetween cursor.string cursor.index behind.index
  return (Token.ofLiteral run, behind)

/-- Reads one item, if there is one. -/
def readItem (cursor : Cursor) :
    Except BadCut (Option (Except ReadingFault Token) × Cursor) := do
  match (← cursor.unread).head? with
  | none => return (none, cursor)
  | some c =>
      match Operator.ofSymbol? c with
      | some operator => return (some (.ok (.operator operator)), cursor.advance c.utf8Size)
      | none =>
          if isLiteralChar c then
            let (item, behind) ← cursor.readRun
            return (some item, behind)
          else return (some (.error (.unexpectedChar c)), cursor)

/-- Reads one item, if there is one.  After a fault nothing is left to read. -/
def next (cursor : Cursor) :
    Except BadCut (Option (Except ReadingFault Token) × Cursor) := do
  match ← cursor.readItem with
  | (some (.error fault), behind) => return (some (.error fault), behind.finish)
  | read => return read

/-- The answers to a number of calls, one after another, and the cursor behind them. -/
def answers : Nat → Cursor →
    Except BadCut (List (Option (Except ReadingFault Token)) × Cursor)
  | 0, cursor => return ([], cursor)
  | calls + 1, cursor => do
      let (before, middle) ← cursor.answers calls
      let (answer, behind) ← middle.next
      return (before ++ [answer], behind)

/-- The byte of a cursor is not behind the end of the string, and lies between two characters. -/
structure IsOnBoundary (cursor : Cursor) : Prop where
  le_size : cursor.index.byteIdx ≤ cursor.string.utf8ByteSize
  isValid : cursor.index.IsValid cursor.string

end Cursor

end AmountPad
