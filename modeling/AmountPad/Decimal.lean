import AmountPad.Binary64
import AmountPad.Text

/-!
# Decimal literals

A literal is a run of ASCII digits with at most one point.  It denotes an exact
decimal, and its value in the calculator is the nearest double.
-/

namespace AmountPad

/-- The non-negative decimal `coefficient / 10 ^ places`. -/
structure Decimal where
  coefficient : Nat
  places : Nat
  deriving DecidableEq, Repr

namespace Decimal

/-- The decimal that a literal denotes.  The point may stand first or last. -/
def ofLiteral (literal : Text) : Decimal :=
  let whole := literal.takeWhile (· ≠ '.')
  let fraction := (literal.dropWhile (· ≠ '.')).drop 1
  ⟨Nat.ofDigitChars 10 (whole ++ fraction) 0, fraction.length⟩

/-- The nearest double, unless the decimal is too large for a finite one. -/
def toFloat? (decimal : Decimal) : Option Float :=
  Binary64.nearest? decimal.coefficient (Nat.pow 10 decimal.places)

example : ofLiteral "5.".toList = ⟨5, 0⟩ := by decide
example : ofLiteral ".50".toList = ⟨50, 2⟩ := by decide
example : ofLiteral "007.25".toList = ⟨725, 2⟩ := by decide

end Decimal

end AmountPad
