import AmountPad.Text

/-!
# Operators and their spellings

Each of the four operators has two spellings: an ASCII symbol, which the token
reader understands, and a glyph, which the pad shows.  Addition is spelled `+`
in both.
-/

namespace AmountPad

/-- The four binary operators of the pad. -/
inductive Operator where
  | plus
  | minus
  | times
  | divide
  deriving DecidableEq, Repr

namespace Operator

/-- The ASCII spelling. -/
def symbol : Operator → Char
  | plus => '+'
  | minus => '-'
  | times => '*'
  | divide => '/'

/-- The spelling that the pad shows. -/
def glyph : Operator → Char
  | plus => '+'
  | minus => '−'
  | times => '×'
  | divide => '÷'

/-- Reads the ASCII spelling. -/
def ofSymbol? : Char → Option Operator
  | '+' => some plus
  | '-' => some minus
  | '*' => some times
  | '/' => some divide
  | _ => none

/-- Reads the spelling that the pad shows. -/
def ofGlyph? : Char → Option Operator
  | '+' => some plus
  | '−' => some minus
  | '×' => some times
  | '÷' => some divide
  | _ => none

/-- Reads either spelling. -/
def ofMark? (c : Char) : Option Operator :=
  (ofGlyph? c).or (ofSymbol? c)

@[simp]
theorem ofSymbol?_symbol (operator : Operator) :
    ofSymbol? operator.symbol = some operator := by
  cases operator <;> rfl

@[simp]
theorem ofGlyph?_glyph (operator : Operator) :
    ofGlyph? operator.glyph = some operator := by
  cases operator <;> rfl

theorem ofSymbol?_eq_some_iff {c : Char} {operator : Operator} :
    ofSymbol? c = some operator ↔ c = operator.symbol := by
  constructor
  · intro read
    unfold ofSymbol? at read
    split at read <;> cases read <;> rfl
  · rintro rfl
    exact ofSymbol?_symbol operator

theorem ofGlyph?_eq_some_iff {c : Char} {operator : Operator} :
    ofGlyph? c = some operator ↔ c = operator.glyph := by
  constructor
  · intro read
    unfold ofGlyph? at read
    split at read <;> cases read <;> rfl
  · rintro rfl
    exact ofGlyph?_glyph operator

end Operator

/-- The ASCII spelling of an operator. -/
def isSymbol (c : Char) : Bool :=
  (Operator.ofSymbol? c).isSome

/-- The shown spelling of an operator. -/
def isGlyph (c : Char) : Bool :=
  (Operator.ofGlyph? c).isSome

/-- Either spelling of an operator. -/
def isMark (c : Char) : Bool :=
  (Operator.ofMark? c).isSome

/-- Either spelling of the minus. -/
def isMinus (c : Char) : Bool :=
  Operator.ofMark? c = some .minus

end AmountPad
