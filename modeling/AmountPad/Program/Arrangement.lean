import AmountPad.Program
import AmountPad.Token

/-!
# Arranging tokens in postfix order

Tokens are taken from the left.  A number goes out at once.  An operator is
held back until one comes that binds no tighter, and at the end of the tokens
all that is still held goes out, the latest first.

A minus is unary unless the token directly before it is a number.  No count of
operands is made here: any list of tokens has an arrangement.
-/

namespace AmountPad

namespace Action

/-- How tightly an action binds. -/
def rank : Action → Nat
  | apply .plus | apply .minus => 1
  | apply .times | apply .divide => 2
  | negate => 3

/-- A held action goes out before an incoming one that binds less tightly, or
as tightly and to the left. -/
def precedes (held incoming : Action) : Bool :=
  incoming.rank < held.rank || (incoming.rank = held.rank && incoming ≠ negate)

/-- The meaning of an operator in its place. -/
def ofOperator (afterNumber : Bool) : Operator → Action
  | .minus => if afterNumber then apply .minus else negate
  | operator => apply operator

end Action

/-- A list of tokens, arranged so far. -/
structure Arrangement where
  /-- The instructions that have gone out, the latest first. -/
  done : List Instruction := []
  /-- The actions held back, the latest first. -/
  held : List Action := []
  /-- Whether the last token was a number. -/
  afterNumber : Bool := false
  deriving DecidableEq

namespace Arrangement

/-- Takes one more token. -/
def add (arrangement : Arrangement) : Token → Arrangement
  | .number value =>
      { arrangement with
        done := .push value :: arrangement.done
        afterNumber := true }
  | .operator operator =>
      let incoming := Action.ofOperator arrangement.afterNumber operator
      let leaving := arrangement.held.takeWhile (·.precedes incoming)
      { done := (leaving.map .perform).reverse ++ arrangement.done
        held := incoming :: arrangement.held.dropWhile (·.precedes incoming)
        afterNumber := false }

/-- The program, once no token is left. -/
def program (arrangement : Arrangement) : Program :=
  arrangement.done.reverse ++ arrangement.held.map .perform

/-- The arrangement of a list of tokens. -/
def ofTokens (tokens : List Token) : Arrangement :=
  tokens.foldl add {}

end Arrangement

/-- The postfix order of a list of tokens. -/
def Program.ofTokens (tokens : List Token) : Program :=
  (Arrangement.ofTokens tokens).program

example :
    Program.ofTokens
        [.number 3, .operator .plus, .number 4, .operator .times,
          .operator .minus, .number 2] =
      [.push 3, .push 4, .push 2, .perform .negate, .perform (.apply .times),
        .perform (.apply .plus)] := by
  decide

end AmountPad
