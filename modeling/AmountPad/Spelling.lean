import AmountPad.Operator

/-!
# Plain spelling

The plain spelling of a text has no blank characters and writes every operator
in ASCII.  Reading, calculating and printing in ASCII all go through it.
-/

namespace AmountPad

/-- Writes a glyph as its ASCII symbol and leaves other characters alone. -/
def plainChar (c : Char) : Char :=
  (Operator.ofGlyph? c).elim c Operator.symbol

/-- The plain spelling of a text. -/
def plain (text : Text) : Text :=
  (text.filter fun c => !isBlank c).map plainChar

@[simp]
theorem plain_nil : plain [] = [] :=
  rfl

theorem plain_append (first second : Text) :
    plain (first ++ second) = plain first ++ plain second := by
  simp [plain]

@[simp]
theorem plainChar_glyph (operator : Operator) :
    plainChar operator.glyph = operator.symbol := by
  simp [plainChar]

end AmountPad
