import AmountPad.Decimal
import AmountPad.Fault
import AmountPad.Spelling

/-!
# Tokens

A text in plain spelling is read from the left.  An operator symbol is a token,
and the longest run of digits and points is one number.  The first fault ends
the reading.

`readAll` lists every token and the fault, if there is one; `Token.ofText`
answers with all tokens or with the first fault.
-/

namespace AmountPad

/-- A number or an operator.  A minus is not yet known as unary or binary. -/
inductive Token where
  | number (value : Float)
  | operator (operator : Operator)
  deriving DecidableEq

/-- The characters of a literal. -/
def isLiteralChar (c : Char) : Bool :=
  c.isDigit || c = '.'

namespace Token

/-- The number of a run of digits and points.  A second point is reported before
a missing digit, and that before a value that is too large. -/
def ofLiteral (literal : Text) : Except ReadingFault Token :=
  if 1 < literal.count '.' then .error (.extraPoint literal)
  else if !literal.any Char.isDigit then .error .lonePoint
  else
    match (Decimal.ofLiteral literal).toFloat? with
    | some value => .ok (.number value)
    | none => .error (.tooLarge literal)

/-- Reads one item, and returns it with what is left to read: nothing after a
fault. -/
def next? : Text → Option (Except ReadingFault Token × Text)
  | [] => none
  | c :: rest =>
      match Operator.ofSymbol? c with
      | some op => some (.ok (.operator op), rest)
      | none =>
          if isLiteralChar c then
            match ofLiteral (c :: rest.takeWhile isLiteralChar) with
            | .ok token => some (.ok token, rest.dropWhile isLiteralChar)
            | .error fault => some (.error fault, [])
          else some (.error (.unexpectedChar c), [])

/-- What is left to read is a shorter end of the text. -/
theorem suffix_of_next? {text rest : Text} {item : Except ReadingFault Token}
    (read : next? text = some (item, rest)) :
    rest <:+ text ∧ rest.length < text.length := by
  cases text with
  | nil => simp [next?] at read
  | cons c tail =>
      have shorter : ∀ {ending : Text}, ending <:+ tail →
          ending <:+ c :: tail ∧ ending.length < (c :: tail).length := by
        intro ending isSuffix
        have bound := isSuffix.length_le
        refine ⟨isSuffix.trans (List.suffix_cons c tail), ?_⟩
        simp only [List.length_cons]
        omega
      simp only [next?] at read
      split at read
      · cases read
        exact shorter (List.suffix_refl _)
      · split at read
        · split at read
          · cases read
            exact shorter (List.dropWhile_suffix isLiteralChar)
          · cases read
            exact shorter List.nil_suffix
        · cases read
          exact shorter List.nil_suffix

/-- The items of a text in plain spelling, in order. -/
def readAll (text : Text) : List (Except ReadingFault Token) :=
  match read : next? text with
  | none => []
  | some (item, rest) =>
      have : rest.length < text.length := (suffix_of_next? read).2
      item :: readAll rest
termination_by text.length

/-- The tokens of a text in any spelling, or the first fault.  A text without
characters other than blanks has no tokens and is refused. -/
def ofText (text : Text) : Except ReadingFault (List Token) :=
  if plain text = [] then .error .emptyText
  else (readAll (plain text)).mapM id

@[simp]
theorem readAll_nil : readAll [] = [] := by
  rw [readAll]
  rfl

/-- Reading lists one item and goes on with what is left. -/
theorem readAll_of_next? {text rest : Text} {item : Except ReadingFault Token}
    (read : next? text = some (item, rest)) :
    readAll text = item :: readAll rest := by
  rw [readAll]
  split
  · rename_i none
    rw [none] at read
    cases read
  · rename_i read'
    rw [read'] at read
    cases read
    rfl

end Token

end AmountPad
