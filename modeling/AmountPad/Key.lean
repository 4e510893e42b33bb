import AmountPad.Operator

/-!
# Keys

The keys of the pad are the ten digits, the point and the four operators.
-/

namespace AmountPad

/-- A key.  A digit key holds the character that it types. -/
inductive Key where
  | digit (digit : Char)
  | point
  | operator (operator : Operator)
  deriving DecidableEq, Repr

namespace Key

/-- The key of a character; operators have one in either spelling. -/
def ofChar? (c : Char) : Option Key :=
  if c.isDigit then some (.digit c)
  else if c = '.' then some .point
  else (Operator.ofMark? c).map .operator

end Key

end AmountPad
