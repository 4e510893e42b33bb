import AmountPad.Proofs.Span
import AmountPad.Proofs.Spelling
import AmountPad.Token.Segment

/-!
# Reading one item

An operator symbol is read by itself.  A literal is read to its end, where the
text stops or goes on with a character that no literal holds.  Reading gives
all tokens in front of an item before the item itself.
-/

namespace AmountPad

theorem IsLiteral.ne_nil {literal : Text} (isLiteral : IsLiteral literal) :
    literal ≠ [] := by
  obtain ⟨c, member, _⟩ := isLiteral.someDigit
  exact List.ne_nil_of_mem member

theorem isLiteral_iff {text : Text} :
    IsLiteral text ↔
      text.all isLiteralChar = true ∧ text.count '.' ≤ 1 ∧ text.any Char.isDigit = true := by
  rw [List.all_eq_true, List.any_eq_true]
  constructor
  · rintro ⟨chars, onePoint, someDigit⟩
    exact ⟨chars, onePoint, someDigit⟩
  · rintro ⟨chars, onePoint, someDigit⟩
    exact ⟨chars, onePoint, someDigit⟩

instance : DecidablePred IsLiteral :=
  fun _ => decidable_of_iff _ isLiteral_iff.symm

instance : DecidablePred IsFiniteLiteral :=
  fun _ => inferInstanceAs (Decidable (_ ∧ _))

/-- One or more characters of a literal, whatever their order. -/
structure IsRun (text : Text) : Prop where
  ne_nil : text ≠ []
  chars : ∀ c ∈ text, isLiteralChar c = true

theorem IsLiteral.isRun {literal : Text} (isLiteral : IsLiteral literal) : IsRun literal :=
  ⟨isLiteral.ne_nil, isLiteral.chars⟩

/-- A text that does not go on with a literal. -/
def EndsLiteral (text : Text) : Prop :=
  ∀ c ∈ text.head?, isLiteralChar c = false

@[simp]
theorem endsLiteral_nil : EndsLiteral [] := by
  simp [EndsLiteral]

@[simp]
theorem endsLiteral_symbol_cons (operator : Operator) (text : Text) :
    EndsLiteral (operator.symbol :: text) := by
  simp [EndsLiteral]

/-- The longest run that begins with a character of a literal. -/
theorem isRun_cons_takeWhile {c : Char} (isChar : isLiteralChar c = true) (text : Text) :
    IsRun (c :: text.takeWhile isLiteralChar) where
  ne_nil := List.cons_ne_nil _ _
  chars := by
    intro d member
    rcases List.mem_cons.mp member with rfl | inRun
    · exact isChar
    · exact List.all_eq_true.mp List.all_takeWhile d inRun

/-- No literal goes on behind the longest run. -/
theorem endsLiteral_dropWhile (text : Text) :
    EndsLiteral (text.dropWhile isLiteralChar) := by
  intro d isHead
  have stops := List.head?_dropWhile_not isLiteralChar text
  rw [Option.mem_def.mp isHead] at stops
  simpa using stops

namespace Token

/-- A literal is a number, unless it is too large. -/
theorem ofLiteral_of_isLiteral {literal : Text} (isLiteral : IsLiteral literal) :
    ofLiteral literal =
      match (Decimal.ofLiteral literal).toFloat? with
      | some value => .ok (.number value)
      | none => .error (.tooLarge literal) := by
  have onePoint : ¬ 1 < literal.count '.' := Nat.not_lt_of_le isLiteral.onePoint
  have someDigit : literal.any Char.isDigit = true :=
    List.any_eq_true.mpr isLiteral.someDigit
  cases valueEq : (Decimal.ofLiteral literal).toFloat? <;>
    simp [ofLiteral, onePoint, someDigit, valueEq]

@[simp]
theorem next?_symbol (operator : Operator) (rest : Text) :
    next? (operator.symbol :: rest) = some (.ok (.operator operator), rest) := by
  simp [next?]

/-- A run is read as a whole. -/
theorem next?_run {run rest : Text} (isRun : IsRun run) (ends : EndsLiteral rest) :
    next? (run ++ rest) =
      match ofLiteral run with
      | .ok token => some (.ok token, rest)
      | .error fault => some (.error fault, []) := by
  cases run with
  | nil => exact absurd rfl isRun.ne_nil
  | cons first others =>
      have firstChar := isRun.chars first List.mem_cons_self
      have otherChars : ∀ c ∈ others, isLiteralChar c = true :=
        fun c member => isRun.chars c (List.mem_cons_of_mem first member)
      have noSymbol := ofSymbol?_eq_none_of_isLiteralChar firstChar
      cases itemEq : ofLiteral (first :: others) <;>
        simp [next?, noSymbol, firstChar, takeWhile_append_of_ends otherChars ends,
          dropWhile_append_of_ends otherChars ends, itemEq]

/-- A literal is read as a whole. -/
theorem next?_literal {literal rest : Text} (isLiteral : IsLiteral literal)
    (ends : EndsLiteral rest) :
    next? (literal ++ rest) =
      match ofLiteral literal with
      | .ok token => some (.ok token, rest)
      | .error fault => some (.error fault, []) :=
  next?_run isLiteral.isRun ends

/-- Tokens in front of other items are listed in front of theirs. -/
theorem mapM_tokens_append (tokens : List Token)
    (items : List (Except ReadingFault Token)) :
    (tokens.map Except.ok ++ items).mapM id = (items.mapM id).map (tokens ++ ·) := by
  induction tokens with
  | nil =>
      simp only [List.map_nil, List.nil_append]
      cases items.mapM id <;> rfl
  | cons token tokens inductionHypothesis =>
      rw [List.map_cons, List.cons_append, List.mapM_cons, inductionHypothesis]
      cases items.mapM id <;> rfl

/-- A text whose items begin with tokens is answered by what comes of the others. -/
theorem ofText_of_readAll {text : Text} {tokens : List Token}
    {items : List (Except ReadingFault Token)} (nonempty : plain text ≠ [])
    (read : readAll (plain text) = tokens.map .ok ++ items) :
    ofText text = (items.mapM id).map (tokens ++ ·) := by
  rw [ofText, if_neg nonempty, read, mapM_tokens_append]

end Token

end AmountPad
