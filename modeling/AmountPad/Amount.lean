import AmountPad.Binary64
import AmountPad.Decimal.Fixed
import AmountPad.Spelling

/-!
# Texts of values

A value is shown in two forms.  The plain form has up to ten places and can be
typed back into the pad; the amount has exactly two.  Both round the exact value
of the double, and a half goes to the even neighbour.
-/

namespace AmountPad.Amount

/-- The magnitude of a double, rounded to a whole number of `10 ^ -places`. -/
def rounded (places : Nat) (x : Float) : Nat :=
  roundHalfEven (Binary64.magnitude x * Nat.pow 10 places) Binary64.unitsPerOne

/-- The plain form keeps ten places. -/
def plainPlaces : Nat :=
  10

/-- A minus in front of the digits of a negative number. -/
def signed (negative : Bool) (digits : Text) : Text :=
  if negative then '-' :: digits else digits

/-- The plain form: no point without a fraction, no zero at the end of one, and
no sign on a value that rounds to zero.  What is not finite is shown as zero. -/
def plainText (x : Float) : Text :=
  if !x.isFinite then ['0']
  else
    let number := rounded plainPlaces x
    if number = 0 then ['0']
    else signed (Binary64.isNegative x) (Decimal.trimmedText plainPlaces number)

/-- Writes the ASCII minus as the glyph. -/
def glyphMinus (c : Char) : Char :=
  if c = '-' then '−' else c

/-- The plain form in the spelling of the pad. -/
def padText (x : Float) : Text :=
  (plainText x).map glyphMinus

/-- The amount: two places, with a sign on every value below zero, even one
whose digits are all zeros.  What is not finite is shown as zero. -/
def centsText (x : Float) : Text :=
  if !x.isFinite then "0.00".toList
  else
    signed (Binary64.isNegative x && Binary64.magnitude x ≠ 0)
      (Decimal.fixedText 2 (rounded 2 x))

/-- An exact half of a hundredth goes to the even hundredth. -/
example : centsText 0.125 = "0.12".toList := by decide +kernel

example : centsText (-0.001) = "-0.00".toList := by decide +kernel
example : plainText (-0.00000000001) = "0".toList := by decide +kernel
example : padText (-12.5) = "−12.5".toList := by decide +kernel
example : plainText 1e22 = "10000000000000000000000".toList := by decide +kernel

end AmountPad.Amount
