import AmountPad.Token

/-!
# Segments of a text

A text in plain spelling falls into segments: the longest runs of digits and
points, and every other character by itself.  What a segment reads as depends on
the segment alone, and reading a text ends with the first segment at fault.
-/

namespace AmountPad

/-- The longest runs of digits and points, and all other characters singly. -/
def segments (text : Text) : List Text :=
  text.splitBy fun c d => isLiteralChar c && isLiteralChar d

/-- Digits and at most one point, with at least one digit. -/
structure IsLiteral (text : Text) : Prop where
  chars : ∀ c ∈ text, isLiteralChar c
  onePoint : text.count '.' ≤ 1
  someDigit : ∃ c ∈ text, c.isDigit

/-- A literal whose value is a finite double. -/
def IsFiniteLiteral (text : Text) : Prop :=
  IsLiteral text ∧ (Decimal.ofLiteral text).toFloat?.isSome

/-- What a segment reads as: a token or a fault. -/
inductive Token.Reads : Text → Except ReadingFault Token → Prop where
  | operator (operator : Operator) :
      Reads [operator.symbol] (.ok (.operator operator))
  | number {segment value} :
      IsLiteral segment → (Decimal.ofLiteral segment).toFloat? = some value →
        Reads segment (.ok (.number value))
  | tooLarge {segment} :
      IsLiteral segment → (Decimal.ofLiteral segment).toFloat? = none →
        Reads segment (.error (.tooLarge segment))
  | lonePoint : Reads ['.'] (.error .lonePoint)
  | extraPoint {segment} :
      (∀ c ∈ segment, isLiteralChar c) → 2 ≤ segment.count '.' →
        Reads segment (.error (.extraPoint segment))
  | unexpected {c} :
      isLiteralChar c = false → Operator.ofSymbol? c = none →
        Reads [c] (.error (.unexpectedChar c))

/-- The items up to the first fault, which is kept. -/
def throughFault : List (Except ReadingFault Token) → List (Except ReadingFault Token)
  | [] => []
  | .ok token :: later => .ok token :: throughFault later
  | .error fault :: _ => [.error fault]

example :
    segments "12.5*-x.".toList =
      ["12.5".toList, ['*'], ['-'], ['x'], ['.']] := by
  decide

end AmountPad
