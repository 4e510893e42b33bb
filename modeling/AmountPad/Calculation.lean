import AmountPad.Program.Arrangement

/-!
# The value of a text

A text is read, arranged and run.  A text that ends in an operator or a point,
or has nothing to read, is unfinished: its value is not asked for while it is
being typed.
-/

namespace AmountPad

/-- The value of a text, finished or not. -/
def calculate (text : Text) : Except Fault Float :=
  match Token.ofText text with
  | .error fault => .error (.reading fault)
  | .ok tokens =>
      match (Program.ofTokens tokens).value with
      | .error fault => .error (.evaluation fault)
      | .ok value => .ok value

/-- Whether a text waits for its next character. -/
def isUnfinished (text : Text) : Bool :=
  match (plain text).getLast? with
  | none => true
  | some c => isSymbol c || c = '.'

/-- The value of a text, refused while the text is unfinished. -/
def calculateFinished (text : Text) : Except Fault Float :=
  if isUnfinished text then .error .unfinished else calculate text

/-- A text has a value if it is read and its program has that value. -/
theorem calculate_eq_ok_iff {text : Text} {value : Float} :
    calculate text = .ok value ↔
      ∃ tokens, Token.ofText text = .ok tokens ∧
        (Program.ofTokens tokens).value = .ok value := by
  unfold calculate
  cases Token.ofText text with
  | error fault => simp
  | ok tokens => cases valueEq : (Program.ofTokens tokens).value <;> simp [valueEq]

theorem calculateFinished_of_not_isUnfinished {text : Text}
    (finished : isUnfinished text = false) :
    calculateFinished text = calculate text := by
  simp [calculateFinished, finished]

theorem calculateFinished_eq_ok_iff {text : Text} {value : Float} :
    calculateFinished text = .ok value ↔
      isUnfinished text = false ∧ calculate text = .ok value := by
  cases unfinished : isUnfinished text <;> simp [calculateFinished, unfinished]

end AmountPad
