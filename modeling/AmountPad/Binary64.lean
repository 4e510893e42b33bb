import AmountPad.Rounding

/-!
# The grid of binary64 numbers

Every finite double is a whole number of units of `2 ^ -1074`.  Its bits below
the sign, read as one number, count through the non-negative doubles in order,
and the same number tells how many units the double is worth.

Decimals are read by going the other way: `nearestBits` gives the bits of the
double nearest to a quotient, with ties to the even significand.
-/

namespace AmountPad.Binary64

/-- The number of units in one, `2 ^ 1074`. -/
def unitsPerOne : Nat :=
  Nat.pow 2 1074

/-- The number of doubles in a binade, `2 ^ 52`. -/
def perBinade : Nat :=
  0x10000000000000

/-- The sign bit, `2 ^ 63`. -/
def signBit : Nat :=
  0x8000000000000000

/-- The bits of infinity, the first ones above the finite doubles. -/
def infinityBits : Nat :=
  2047 * perBinade

/-- The units of the non-negative double with the given bits.  In the first two
binades the bits are the units; from there the spacing doubles with each. -/
def units (bits : Nat) : Nat :=
  if bits < 2 * perBinade then bits
  else (perBinade + bits % perBinade) * Nat.pow 2 (bits / perBinade - 1)

/-- The bits of the double nearest to `numerator / denominator`; of two doubles
that are equally near, the one with the even significand.  A quotient too large
for a finite double gives `infinityBits` or more.

`Nat.pow 2 step` is the spacing of doubles in the binade of the quotient, and
the significand is the quotient rounded to a whole number of such steps.  A
significand that is rounded up to the next binade carries into the exponent by
itself. -/
def nearestBits (numerator denominator : Nat) : Nat :=
  let scaled := numerator * unitsPerOne
  let step := Nat.log2 (scaled / denominator) - 52
  step * perBinade + roundHalfEven scaled (denominator * Nat.pow 2 step)

/-- The finite double nearest to `numerator / denominator`, if there is one. -/
def nearest? (numerator denominator : Nat) : Option Float :=
  let bits := nearestBits numerator denominator
  if bits < infinityBits then some (Float.ofBits (UInt64.ofNat bits)) else none

/-- The units of the magnitude of a finite double. -/
def magnitude (x : Float) : Nat :=
  units (x.toBits.toNat % signBit)

/-- Whether the sign bit is set. -/
def isNegative (x : Float) : Bool :=
  signBit ≤ x.toBits.toNat

@[simp]
theorem nearestBits_zero (denominator : Nat) : nearestBits 0 denominator = 0 := by
  simp [nearestBits]

/-- One tenth is rounded up to the last bit. -/
example : nearestBits 1 10 = 0x3FB999999999999A := by
  decide +kernel

/-- The smallest subnormal is one unit, and half of it goes to zero. -/
example :
    nearestBits 1 (2 ^ 1074) = 1 ∧ nearestBits 1 (2 ^ 1075) = 0 ∧
      nearestBits 3 (2 ^ 1075) = 2 := by
  decide +kernel

/-- Half a step above the largest finite double is where infinity begins. -/
example :
    nearestBits (2 ^ 1024 - 2 ^ 970) 1 = infinityBits ∧
      nearestBits (2 ^ 1024 - 2 ^ 970 - 1) 1 = infinityBits - 1 := by
  decide +kernel

end AmountPad.Binary64
