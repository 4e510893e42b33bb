import AmountPad.Key
import AmountPad.Spelling

/-!
# The text being typed

Each key turns one text into the next.  Keys act at the end of the text: a digit
takes the place of a lone zero, a point brings a zero along where no digit
stands before it, and an operator takes the place of the operators that the text
ends in.  A key that makes no sense leaves the text as it is.

A minus after another operator is a sign, so it is added and not put in its
place; a later operator takes the place of both.
-/

namespace AmountPad.Entry

/-- What is shown when nothing has been typed. -/
def zero : Text :=
  ['0']

/-- The empty text counts as a zero. -/
def orZero (text : Text) : Text :=
  if text = [] then zero else text

/-- A sign without a number. -/
def isLoneMinus : Text → Bool
  | [c] => isMinus c
  | _ => false

/-- A sign and a zero. -/
def isNegativeZero : Text → Bool
  | [c, d] => isMinus c && d = '0'
  | _ => false

/-- The text ends in an operator, in either spelling. -/
def endsInMark (text : Text) : Bool :=
  text.getLast?.any isMark

/-- The number being typed: the plain spelling of what follows the last
operator. -/
def lastSegment (text : Text) : Text :=
  ((plain text).reverse.takeWhile fun c => !isSymbol c).reverse

/-- Types a digit. -/
def addDigit (text : Text) (digit : Char) : Text :=
  if text = zero then [digit]
  else if isNegativeZero text && digit ≠ '0' then [Operator.minus.glyph, digit]
  else text ++ [digit]

/-- Types a point. -/
def addPoint (text : Text) : Text :=
  if text = zero then ['0', '.']
  else if isLoneMinus text then [Operator.minus.glyph, '0', '.']
  else if endsInMark text then text ++ ['0', '.']
  else if (lastSegment text).contains '.' then text
  else text ++ ['.']

/-- The text without the operators that a new operator takes the place of: the
last one, and with a sign also the operator before it.  A minus takes the place
of a minus only. -/
def dropReplaced (text : Text) (operator : Operator) : Text :=
  match text.getLast? with
  | none => text
  | some last =>
      if !isMark last then text
      else if operator = .minus then
        if isMinus last then text.dropLast else text
      else if isMinus last && endsInMark text.dropLast then text.dropLast.dropLast
      else text.dropLast

/-- Types an operator. -/
def addOperator (text : Text) (operator : Operator) : Text :=
  if text = zero && operator = .minus then [operator.glyph]
  else if isLoneMinus text then text
  else dropReplaced text operator ++ [operator.glyph]

/-- The text after a key. -/
def press (text : Text) : Key → Text
  | .digit digit => addDigit (orZero text) digit
  | .point => addPoint (orZero text)
  | .operator operator => addOperator (orZero text) operator

/-- The text after a character, which is ignored unless it has a key. -/
def type (text : Text) (c : Char) : Text :=
  match Key.ofChar? c with
  | some key => press text key
  | none => orZero text

/-- The text without its last character; what is left of it may not be a sign
alone. -/
def erase (text : Text) : Text :=
  let shorter := text.dropLast
  if shorter = [] || isLoneMinus shorter then zero else shorter

theorem orZero_ne_nil (text : Text) : orZero text ≠ [] := by
  unfold orZero
  split
  · simp [zero]
  · assumption

example :
    "1+×−÷2".toList.foldl type zero = "1÷2".toList ∧
      "00.0.1".toList.foldl type zero = "0.01".toList ∧
      "3*-4".toList.foldl type zero = "3×−4".toList := by
  decide

end AmountPad.Entry
