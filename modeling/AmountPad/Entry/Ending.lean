import AmountPad.Decimal.Exact
import AmountPad.Entry
import AmountPad.Token.Segment
import Mathlib.Data.List.DropRight

/-!
# What keys add to the end of a text

A text is told from its end in two ways: by the number behind its last operator, which
may not have begun yet, and by the operators behind its last number.  A digit or a point
goes on with the number, and what a number is worth tells what they mean.  An operator
takes its place among the operators.
-/

namespace AmountPad.Entry

/-! ## The end of a text -/

/-- The text up to its last operator, and with it. -/
def beforeSegment (text : Text) : Text :=
  text.rdropWhile fun c => !isMark c

/-- The text without the operators at its end. -/
def beforeMarks (text : Text) : Text :=
  text.rdropWhile isMark

/-- The operators at the end of a text. -/
def lastMarks (text : Text) : Text :=
  text.rtakeWhile isMark

/-! ## Additions -/

/-- Only the number at the end is another one, and it is a literal. -/
structure NumberChanged (text next : Text) : Prop where
  before : beforeSegment next = beforeSegment text
  next_eq : next = beforeSegment next ++ lastSegment next
  isLiteral : IsLiteral (lastSegment next)

/-- The number at the end has one more digit: behind a point the digit is worth a tenth of
the last place, and with no point all digits before it are worth ten times as much.  A
number that has not begun is worth nothing. -/
structure DigitAdded (digit : Nat) (text next : Text) : Prop extends
    NumberChanged text next where
  value : Decimal.literalRat (lastSegment next) =
    if '.' ∈ lastSegment text then
      Decimal.literalRat (lastSegment text) +
        digit / 10 ^ ((Decimal.ofLiteral (lastSegment text)).places + 1)
    else 10 * Decimal.literalRat (lastSegment text) + digit

/-- The number at the end has one point, and is worth what it was worth. -/
structure PointAdded (text next : Text) : Prop extends NumberChanged text next where
  value : Decimal.literalRat (lastSegment next) = Decimal.literalRat (lastSegment text)
  count : (lastSegment next).count '.' = 1

/-- The operators at the end are the new one alone, or a minus that is the sign of the
number behind another operator. -/
structure OperatorAdded (operator : Operator) (text next : Text) : Prop where
  before : beforeMarks next = beforeMarks text
  marks : ((operator ≠ .minus ∨ lastMarks text = [] ∨
        lastMarks text = [Operator.minus.glyph]) ∧ lastMarks next = [operator.glyph]) ∨
    operator = .minus ∧ ∃ held : Operator, held ≠ .minus ∧
      (lastMarks text).head? = some held.glyph ∧
        lastMarks next = [held.glyph, Operator.minus.glyph]

end AmountPad.Entry
