import AmountPad.Binary64
import Mathlib.Algebra.Order.Field.Rat

/-!
# The exact value of a double

A finite double is a whole number of units, so its value is a rational number
with a power of two below the line.  The double nearest to a rational number is the
one that no other is nearer than, and the one with the even significand of two that
are equally near.
-/

namespace AmountPad.Binary64

/-- The units of a finite double, below zero if its sign bit is set. -/
def signedUnits (x : Float) : Int :=
  if isNegative x then -(magnitude x : Int) else magnitude x

/-- The exact value of a finite double. -/
def toRat (x : Float) : Rat :=
  (signedUnits x : Rat) / (unitsPerOne : Rat)

/-- The significand of a finite double.  Its leading bit is not among the bits of the
double, except below the first whole binade, where there is none. -/
def significand (x : Float) : Nat :=
  let bits := x.toBits.toNat % signBit
  if bits < perBinade then bits else perBinade + bits % perBinade

/-- The finite double nearest to a rational number, with the sign of the number. -/
structure IsNearest (q : Rat) (x : Float) : Prop where
  isFinite : x.isFinite = true
  sign : isNegative x = true ↔ q < 0
  near : ∀ y : Float, y.isFinite = true → |toRat x - q| ≤ |toRat y - q|
  even : ∀ y : Float, y.isFinite = true → toRat y ≠ toRat x →
    |toRat y - q| = |toRat x - q| → significand x % 2 = 0

theorem natAbs_signedUnits (x : Float) : (signedUnits x).natAbs = magnitude x := by
  unfold signedUnits
  split
  · rw [Int.natAbs_neg, Int.natAbs_natCast]
  · rw [Int.natAbs_natCast]

example : toRat (-0.75) = -3 / 4 := by
  decide +kernel

/-- One tenth is not among the doubles. -/
example : toRat 0.1 ≠ 1 / 10 := by
  decide +kernel

end AmountPad.Binary64
