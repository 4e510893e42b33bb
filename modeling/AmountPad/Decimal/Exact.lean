import AmountPad.Decimal
import Mathlib.Algebra.Order.Field.Rat

/-!
# The exact value of a decimal text

Each digit of a literal is worth a tenth of what it is worth one place before.  A
rational number is rounded to some places by the nearest whole number of the last
place, and written canonically without a superfluous zero, point or sign.
-/

namespace AmountPad.Decimal

/-- The value of the digits behind a point. -/
def fractionRat : Text → Rat
  | [] => 0
  | c :: rest => ((c.toNat - '0'.toNat : Nat) + fractionRat rest) / 10

/-- The exact value of a literal. -/
def literalRat (literal : Text) : Rat :=
  Nat.ofDigitChars 10 (literal.takeWhile (· ≠ '.')) 0 +
    fractionRat ((literal.dropWhile (· ≠ '.')).drop 1)

/-- A rational number rounded to a whole number of `10 ^ -places`; a half goes to the
even neighbour. -/
def IsRounding (places : Nat) (q d : Rat) : Prop :=
  ∃ number : Int, d = number / 10 ^ places ∧ |q * 10 ^ places - number| ≤ 1 / 2 ∧
    (|q * 10 ^ places - number| = 1 / 2 → number % 2 = 0)

/-- All digits of a natural number, with no superfluous zero in front. -/
structure IsWhole (digits : Text) : Prop where
  ne_nil : digits ≠ []
  isDigit : ∀ c ∈ digits, c.isDigit
  front : digits = ['0'] ∨ digits.head? ≠ some '0'

/-- The canonical text of a decimal, with its digits before and behind the point: a
minus if it is below zero, and a point only in front of a fraction, which does not end
in a zero. -/
structure IsCanonical (d : Rat) (text whole fraction : Text) : Prop where
  text_eq : text = (if d < 0 then ['-'] else []) ++ whole ++
    if fraction = [] then [] else '.' :: fraction
  isWhole : IsWhole whole
  isDigit : ∀ c ∈ fraction, c.isDigit
  last : fraction.getLast? ≠ some '0'
  value : literalRat (whole ++ '.' :: fraction) = |d|

example : literalRat "07.250".toList = 29 / 4 := by
  decide +kernel

end AmountPad.Decimal
