import AmountPad.Toml.Document

/-!
# Writing assignments to a TOML document

An assignment is written on a line of its own: a bare key, an equals sign
between spaces, and the value.  A text stands in double quotes, with a backslash
in front of quotes and backslashes and the code of every character that must not
stand for itself.
-/

namespace AmountPad.Toml

/-- The values that are written on one line without brackets. -/
inductive Scalar where
  | string (text : Text)
  | boolean (flag : Bool)
  | integer (number : Int)
  deriving DecidableEq, Repr

/-- A scalar as a value of a document. -/
def Scalar.toValue : Scalar → Value
  | string text => .string text
  | boolean flag => .boolean flag
  | integer number => .integer number

/-- The last four hexadecimal digits of a code. -/
def fourDigits (code : Nat) : Text :=
  [4096, 256, 16, 1].map fun place => Nat.digitChar (code / place % 16)

/-- A character as it is written in double quotes. -/
def escapeChar (c : Char) : Text :=
  if c = '"' || c = '\\' then ['\\', c]
  else if isPlainChar c then [c]
  else '\\' :: 'u' :: fourDigits c.toNat

/-- A text in double quotes. -/
def basicText (text : Text) : Text :=
  '"' :: text.flatMap escapeChar ++ ['"']

/-- An integer in base ten. -/
def integerText (number : Int) : Text :=
  if number < 0 then '-' :: Nat.toDigits 10 number.natAbs
  else Nat.toDigits 10 number.natAbs

/-- A scalar as it is written. -/
def Scalar.written : Scalar → Text
  | string text => basicText text
  | boolean flag => (if flag then "true" else "false").toList
  | integer number => integerText number

/-- A key with its value. -/
structure Assignment where
  key : Text
  value : Scalar
  deriving DecidableEq, Repr

/-- The line of an assignment. -/
def Assignment.line (assignment : Assignment) : Text :=
  assignment.key ++ " = ".toList ++ assignment.value.written ++ ['\n']

/-- A key that is written without quotes. -/
def IsBareKey (key : Text) : Prop :=
  key ≠ [] ∧ ∀ c ∈ key, isKeyChar c

/-- A document of assignments. -/
def document (assignments : List Assignment) : Text :=
  assignments.flatMap Assignment.line

example :
    basicText "a\"\\\n".toList = "\"a\\\"\\\\\\u000a\"".toList := by
  decide

example :
    (read? (document [⟨"a".toList, .integer (-7)⟩, ⟨"b".toList, .boolean true⟩])).map
        (·.map Prod.fst) =
      some ["a".toList, "b".toList] := by
  decide +kernel

end AmountPad.Toml
