import AmountPad.Entry

/-!
# The texts that can be typed

A typed text is a sign alone, or a chain of numbers that may still wait for its
next number.  The first number can have a sign of its own; a later number can
have one unless the operator before it is a minus.

Leading zeros are kept out of the first number as long as a digit can take the
place of a lone zero.  A lone zero is never followed by a minus, since a minus
takes its place too.
-/

namespace AmountPad.Entry

/-- A number as it is typed, given with its digits before the point.  There is
no point, or a point with digits behind it or none yet. -/
inductive IsNumeral : (whole text : Text) → Prop where
  | integer {whole} :
      whole ≠ [] → (∀ c ∈ whole, c.isDigit) → IsNumeral whole whole
  | decimal {whole fraction} :
      whole ≠ [] → (∀ c ∈ whole, c.isDigit) → (∀ c ∈ fraction, c.isDigit) →
        IsNumeral whole (whole ++ '.' :: fraction)

/-- Whether an operator can be typed directly behind a text. -/
def CanFollow (text : Text) (operator : Operator) : Prop :=
  text = zero → operator ≠ .minus

/-- A chain that ends in a number. -/
inductive IsComplete : Text → Prop where
  | unsigned {whole text} :
      IsNumeral whole text → (whole = zero ∨ whole.head? ≠ some '0') →
        IsComplete text
  | signed {whole text} :
      IsNumeral whole text →
        (∀ digit rest, whole = '0' :: digit :: rest → digit = '0') →
        IsComplete (Operator.minus.glyph :: text)
  | extend {text whole number} (operator : Operator) :
      IsComplete text → CanFollow text operator → IsNumeral whole number →
        IsComplete (text ++ operator.glyph :: number)
  | extendSigned {text whole number} (operator : Operator) :
      IsComplete text → operator ≠ .minus → IsNumeral whole number →
        IsComplete (text ++ operator.glyph :: Operator.minus.glyph :: number)

/-- A text that can be typed. -/
inductive IsTyped : Text → Prop where
  | sign : IsTyped [Operator.minus.glyph]
  | complete {text} : IsComplete text → IsTyped text
  | operator {text} (operator : Operator) :
      IsComplete text → CanFollow text operator → IsTyped (text ++ [operator.glyph])
  | operatorSign {text} (operator : Operator) :
      IsComplete text → operator ≠ .minus →
        IsTyped (text ++ [operator.glyph, Operator.minus.glyph])

/-- What is shown at first can be typed. -/
theorem isTyped_zero : IsTyped zero :=
  .complete (.unsigned (.integer (by simp [zero]) (by simp [zero])) (.inl rfl))

end AmountPad.Entry
