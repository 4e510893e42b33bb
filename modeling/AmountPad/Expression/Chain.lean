import AmountPad.Token.Segment

/-!
# Chains of operands

The texts that spell an expression, in plain spelling, are chains: operands with
one operator between each two of them, where an operand is a literal behind any
number of minuses.  Which literals are allowed is left open.
-/

namespace AmountPad

/-- A literal behind any number of minuses. -/
inductive IsOperand (allowed : Text → Prop) : Text → Prop where
  | literal {text} : allowed text → IsOperand allowed text
  | negated {text} :
      IsOperand allowed text → IsOperand allowed (Operator.minus.symbol :: text)

/-- Operands with one operator between each two of them. -/
inductive IsChain (allowed : Text → Prop) : Text → Prop where
  | operand {text} : IsOperand allowed text → IsChain allowed text
  | extend {text last} (operator : Operator) :
      IsChain allowed text → IsOperand allowed last →
        IsChain allowed (text ++ operator.symbol :: last)

end AmountPad
