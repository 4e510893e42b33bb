import AmountPad.Toml.Printer
import Mathlib.Data.List.Forall2

/-!
# How assignments may be written

There is more than one way to write a text in double quotes: a character may stand for
itself or be escaped by its letter or its code, in either case of the digits.  Underscores
may group the digits of an integer.  Lines end in a line feed, which a carriage return may
precede, and the last line needs no end.

What is written in any of these ways is what a reader has to understand.  The printer
chooses one of them.
-/

namespace AmountPad.Toml

/-! ## Characters -/

/-- The letters behind a backslash, with the characters that they stand for. -/
def escapeLetters : List (Char × Char) :=
  [('b', '\x08'), ('t', '\t'), ('n', '\n'), ('f', '\x0c'), ('r', '\r'), ('"', '"'),
    ('\\', '\\')]

/-- A hexadecimal digit of a value, in either case. -/
inductive IsHexDigit : Nat → Char → Prop where
  | lower {value : Nat} : value < 16 → IsHexDigit value (Nat.digitChar value)
  | upper {value : Nat} : value < 16 → IsHexDigit value (Nat.digitChar value).toUpper

/-- The number of some hexadecimal digits. -/
def ofHexDigits (values : List Nat) : Nat :=
  values.foldl (fun number value => 16 * number + value) 0

/-- The ways to write a character in double quotes. -/
inductive Spells : Char → Text → Prop where
  | self {c : Char} : isPlainChar c = true → c ≠ '"' → c ≠ '\\' → Spells c [c]
  | letter {letter c : Char} : (letter, c) ∈ escapeLetters → Spells c ['\\', letter]
  | shortCode {c : Char} {values : List Nat} {digits : Text} :
      List.Forall₂ IsHexDigit values digits → digits.length = 4 →
        ofHexDigits values = c.toNat → Spells c ('\\' :: 'u' :: digits)
  | longCode {c : Char} {values : List Nat} {digits : Text} :
      List.Forall₂ IsHexDigit values digits → digits.length = 8 →
        ofHexDigits values = c.toNat → Spells c ('\\' :: 'U' :: digits)

/-- The ways to write a text between double quotes. -/
inductive IsEscaped : Text → Text → Prop where
  | nil : IsEscaped [] []
  | cons {c : Char} {text spelling raw : Text} :
      Spells c spelling → IsEscaped text raw → IsEscaped (c :: text) (spelling ++ raw)

/-! ## Integers -/

/-- The ways to write digits, with an underscore between two digits or without. -/
inductive IsGrouped : Text → Text → Prop where
  | last {c : Char} : c.isDigit = true → IsGrouped [c] [c]
  | next {c : Char} {digits written : Text} :
      c.isDigit = true → IsGrouped digits written → IsGrouped (c :: digits) (c :: written)
  | group {c : Char} {digits written : Text} :
      c.isDigit = true → IsGrouped digits written →
        IsGrouped (c :: digits) (c :: '_' :: written)

/-- The ways to write an integer in base ten.  Without a sign it is not negative. -/
inductive IsDecimal : Int → Text → Prop where
  | unsigned {number : Nat} {written : Text} :
      IsGrouped (Nat.toDigits 10 number) written → IsDecimal number written
  | plus {number : Nat} {written : Text} :
      IsGrouped (Nat.toDigits 10 number) written → IsDecimal number ('+' :: written)
  | minus {number : Nat} {written : Text} :
      IsGrouped (Nat.toDigits 10 number) written → IsDecimal (-number) ('-' :: written)

/-! ## Lines -/

/-- The ways to write a scalar.  Integers have up to 64 bits. -/
inductive Scalar.IsWritten : Scalar → Text → Prop where
  | string {text raw : Text} : IsEscaped text raw →
      IsWritten (.string text) ('"' :: raw ++ ['"'])
  | boolean (flag : Bool) : IsWritten (.boolean flag) (if flag then "true" else "false").toList
  | integer {number : Int} {written : Text} :
      -0x8000000000000000 ≤ number → number ≤ 0x7FFFFFFFFFFFFFFF → IsDecimal number written →
        IsWritten (.integer number) written

/-- The ways to write an assignment to a bare key on one line. -/
inductive Assignment.IsLine : Assignment → Text → Prop where
  | intro {key written : Text} {value : Scalar} : IsBareKey key → value.IsWritten written →
      IsLine ⟨key, value⟩ (key ++ " = ".toList ++ written)

/-- A line feed, which a carriage return may precede. -/
inductive IsLineEnd : Text → Prop where
  | lineFeed : IsLineEnd ['\n']
  | carriageReturn : IsLineEnd ['\r', '\n']

/-- The ways to write a document of assignments, each on a line of its own. -/
inductive IsDocument : List Assignment → Text → Prop where
  | nil : IsDocument [] []
  | last {assignment : Assignment} {line : Text} :
      assignment.IsLine line → IsDocument [assignment] line
  | cons {assignment : Assignment} {assignments : List Assignment} {line lineEnd text : Text} :
      assignment.IsLine line → IsLineEnd lineEnd → IsDocument assignments text →
        IsDocument (assignment :: assignments) (line ++ lineEnd ++ text)

end AmountPad.Toml
