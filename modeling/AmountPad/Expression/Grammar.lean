import AmountPad.Expression
import AmountPad.Token

/-!
# Expressions without parentheses

Tokens name no grouping, so only some trees can be written.  A sum is a chain of
products, a product is a chain of factors, and a factor is a number behind any
number of minuses.  Chains group to the left.
-/

namespace AmountPad.Expression

/-- The tokens in reading order.  A minus is the same token for both of its
uses. -/
def tokens : Expression → List Token
  | number x => [.number x]
  | negate operand => .operator .minus :: operand.tokens
  | binary operator left right => left.tokens ++ .operator operator :: right.tokens

/-- A number behind any number of minuses. -/
inductive IsFactor : Expression → Prop where
  | number (x : Float) : IsFactor (number x)
  | negate {operand} : IsFactor operand → IsFactor (negate operand)

/-- Factors joined by `*` and `/`. -/
inductive IsProduct : Expression → Prop where
  | factor {single} : IsFactor single → IsProduct single
  | times {left right} :
      IsProduct left → IsFactor right → IsProduct (binary .times left right)
  | divide {left right} :
      IsProduct left → IsFactor right → IsProduct (binary .divide left right)

/-- Products joined by `+` and `-`. -/
inductive IsSum : Expression → Prop where
  | product {single} : IsProduct single → IsSum single
  | plus {left right} :
      IsSum left → IsProduct right → IsSum (binary .plus left right)
  | minus {left right} :
      IsSum left → IsProduct right → IsSum (binary .minus left right)

/-- Every tree takes at least one token. -/
theorem tokens_ne_nil (expression : Expression) : expression.tokens ≠ [] := by
  cases expression <;> simp [tokens]

/-- A minus binds tighter in front of a number than any operator between two. -/
example :
    (binary .times (negate (number 2)) (number 3)).tokens =
      [.operator .minus, .number 2, .operator .times, .number 3] := by
  rfl

end AmountPad.Expression
