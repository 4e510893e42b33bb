import AmountPad.Program.Arrangement

/-!
# Reading order and layers of an arrangement

A list of tokens has its instructions in reading order before it is arranged: a number is
pushed, and an operator is what it is, except that a minus is unary unless the token directly
before it is a number.

What is held back while tokens are arranged lies in layers by how tightly it binds.
-/

namespace AmountPad

/-- The value of a number. -/
def Token.value? : Token → Option Float
  | number value => some value
  | operator _ => none

/-- The value of a number. -/
def Instruction.value? : Instruction → Option Float
  | push value => some value
  | perform _ => none

/-- What a token becomes behind the token before it, if there is one. -/
def Token.instructionBehind : Option Token → Token → Instruction
  | _, number value => .push value
  | some (number _), operator .minus => .perform (.apply .minus)
  | _, operator .minus => .perform .negate
  | _, operator symbol => .perform (.apply symbol)

/-- The instructions of a list of tokens in reading order. -/
def Program.readingOrder (tokens : List Token) : Program :=
  List.zipWith Token.instructionBehind (none :: tokens.map some) tokens

/-- The layers of what is held, from the bottom: a sum, a product and signs. -/
structure Arrangement.IsLayered (held : List Action) (sum product : Option Operator)
    (signs : Nat) : Prop where
  held_eq : held.reverse =
    (sum.toList ++ product.toList).map .apply ++ List.replicate signs .negate
  isSum : ∀ operator ∈ sum, operator = .plus ∨ operator = .minus
  isProduct : ∀ operator ∈ product, operator = .times ∨ operator = .divide

example :
    Program.readingOrder
        [.operator .minus, .number 3, .operator .minus, .operator .minus] =
      [.perform .negate, .push 3, .perform (.apply .minus), .perform .negate] := by
  decide

end AmountPad
