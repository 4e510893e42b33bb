/-!
# Text and blank characters

All text in this library is a list of Unicode scalar values, so that every
operation on it is a recursion or a list operator.

A character is blank when it has the Unicode property `White_Space`.
-/

namespace AmountPad

/-- A text is the list of its characters. -/
abbrev Text := List Char

/-- The code points of the Unicode property `White_Space`, as closed ranges. -/
def blankRanges : List (Nat × Nat) :=
  [(0x0009, 0x000D), (0x0020, 0x0020), (0x0085, 0x0085), (0x00A0, 0x00A0),
    (0x1680, 0x1680), (0x2000, 0x200A), (0x2028, 0x2029), (0x202F, 0x202F),
    (0x205F, 0x205F), (0x3000, 0x3000)]

/-- Membership in the Unicode property `White_Space`. -/
def isBlank (c : Char) : Bool :=
  blankRanges.any fun range => range.1 ≤ c.toNat && c.toNat ≤ range.2

/-- The ranges hold twenty-five code points. -/
example :
    (blankRanges.map fun range => range.2 + 1 - range.1).sum = 25 := by
  decide

end AmountPad
