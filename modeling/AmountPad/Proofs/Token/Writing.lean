import AmountPad.Proofs.Token.Reading

/-!
# Texts that write out tokens

A text writes out a list of tokens when it is made of their symbols and literals
in order, with no literal directly behind another.  Every text that is read
without a fault writes out the tokens that are found in it.
-/

namespace AmountPad.Token

/-- A text in plain spelling is made of the symbols and literals of a list of
tokens. -/
inductive Writes : Text → List Token → Prop where
  | nil : Writes [] []
  | operator {text tokens} (operator : Operator) :
      Writes text tokens → Writes (operator.symbol :: text) (.operator operator :: tokens)
  | number {literal value text tokens} :
      IsLiteral literal → (Decimal.ofLiteral literal).toFloat? = some value →
        EndsLiteral text → Writes text tokens →
        Writes (literal ++ text) (.number value :: tokens)

/-- Every token takes at least one character. -/
theorem Writes.eq_nil_iff {text : Text} {tokens : List Token} (writes : Writes text tokens) :
    text = [] ↔ tokens = [] := by
  cases writes with
  | nil => simp
  | operator => simp
  | number isLiteral => simp [isLiteral.ne_nil]

/-- What is read as a number is a literal with a finite value. -/
theorem isLiteral_of_ofLiteral {literal : Text} {token : Token}
    (chars : ∀ c ∈ literal, isLiteralChar c = true)
    (read : ofLiteral literal = .ok token) :
    IsLiteral literal ∧
      ∃ value, (Decimal.ofLiteral literal).toFloat? = some value ∧ token = .number value := by
  unfold ofLiteral at read
  split at read
  · cases read
  · rename_i onePoint
    split at read
    · cases read
    · rename_i someDigit
      have isLiteral : IsLiteral literal :=
        isLiteral_iff.mpr ⟨List.all_eq_true.mpr chars, Nat.le_of_not_lt onePoint,
          by simpa using someDigit⟩
      split at read
      · rename_i value valueEq
        cases read
        exact ⟨isLiteral, value, valueEq, rfl⟩
      · cases read

/-- A token is read from the symbol or from the whole literal in front. -/
theorem next?_eq_ok_cases {text rest : Text} {token : Token}
    (read : next? text = some (.ok token, rest)) :
    (∃ operator, token = .operator operator ∧ text = Operator.symbol operator :: rest) ∨
      ∃ literal value, token = .number value ∧ text = literal ++ rest ∧
        IsLiteral literal ∧ (Decimal.ofLiteral literal).toFloat? = some value ∧
        EndsLiteral rest := by
  cases text with
  | nil => cases read
  | cons c tail =>
      simp only [next?] at read
      split at read
      · rename_i operator isSymbol
        cases read
        rw [Operator.ofSymbol?_eq_some_iff.mp isSymbol]
        exact .inl ⟨operator, rfl, rfl⟩
      · split at read
        · rename_i isChar
          split at read
          · rename_i found foundEq
            cases read
            have isRun := isRun_cons_takeWhile isChar tail
            obtain ⟨isLiteral, value, valueEq, rfl⟩ := isLiteral_of_ofLiteral isRun.chars foundEq
            refine .inr ⟨_, value, rfl, ?_, isLiteral, valueEq, endsLiteral_dropWhile tail⟩
            rw [List.cons_append, List.takeWhile_append_dropWhile]
          · cases read
        · cases read

/-- Only the empty text has nothing to read. -/
theorem eq_nil_of_next?_eq_none {text : Text} (read : next? text = none) : text = [] := by
  cases text with
  | nil => rfl
  | cons c tail =>
      simp only [next?] at read
      split at read
      · cases read
      · split at read
        · split at read <;> cases read
        · cases read

/-- Items that are all tokens begin with a token. -/
theorem exists_token_of_mapM {item : Except ReadingFault Token}
    {items : List (Except ReadingFault Token)} {tokens : List Token}
    (collected : (item :: items).mapM id = .ok tokens) :
    ∃ token later, item = .ok token ∧ items.mapM id = .ok later ∧ tokens = token :: later := by
  rw [List.mapM_cons] at collected
  cases item with
  | error fault => cases collected
  | ok token =>
      cases itemsEq : items.mapM id with
      | error fault =>
          rw [itemsEq] at collected
          cases collected
      | ok later =>
          rw [itemsEq] at collected
          cases collected
          exact ⟨token, later, rfl, rfl, rfl⟩

/-- A text whose items are all tokens writes them out. -/
theorem writes_of_readAll {text : Text} {tokens : List Token}
    (collected : (readAll text).mapM id = .ok tokens) : Writes text tokens := by
  induction tokens generalizing text with
  | nil =>
      cases read : next? text with
      | none =>
          rw [eq_nil_of_next?_eq_none read]
          exact .nil
      | some found =>
          rw [readAll_of_next? read] at collected
          rcases exists_token_of_mapM collected with ⟨_, _, _, _, isCons⟩
          cases isCons
  | cons token tokens inductionHypothesis =>
      cases read : next? text with
      | none =>
          rw [eq_nil_of_next?_eq_none read, readAll_nil] at collected
          cases collected
      | some found =>
          rcases found with ⟨item, rest⟩
          rw [readAll_of_next? read] at collected
          rcases exists_token_of_mapM collected with ⟨first, later, rfl, restEq, isCons⟩
          cases isCons
          have restWrites := inductionHypothesis restEq
          rcases next?_eq_ok_cases read with
            ⟨operator, rfl, rfl⟩ | ⟨literal, value, rfl, rfl, isLiteral, valueEq, ends⟩
          · exact .operator operator restWrites
          · exact .number isLiteral valueEq ends restWrites

/-- The tokens that a text writes out are its items. -/
theorem Writes.readAll_eq {text : Text} {tokens : List Token} (writes : Writes text tokens) :
    readAll text = tokens.map .ok := by
  induction writes with
  | nil => exact readAll_nil
  | operator operator _ inductionHypothesis =>
      rw [readAll_of_next? (next?_symbol operator _), inductionHypothesis]
      rfl
  | number isLiteral valueEq ends _ inductionHypothesis =>
      have read := next?_literal isLiteral ends
      simp only [ofLiteral_of_isLiteral isLiteral, valueEq] at read
      rw [readAll_of_next? read, inductionHypothesis]
      rfl

/-- A text is read without a fault exactly if its plain spelling writes out
tokens, of which there is at least one. -/
theorem ofText_eq_ok_iff {text : Text} {tokens : List Token} :
    ofText text = .ok tokens ↔ Writes (plain text) tokens ∧ tokens ≠ [] := by
  constructor
  · intro read
    unfold ofText at read
    split at read
    · cases read
    · rename_i nonempty
      have writes := writes_of_readAll read
      constructor
      · exact writes
      · exact fun isEmpty => nonempty (writes.eq_nil_iff.mpr isEmpty)
  · rintro ⟨writes, someToken⟩
    have nonempty : plain text ≠ [] := fun isEmpty =>
      someToken (writes.eq_nil_iff.mp isEmpty)
    have read := writes.readAll_eq
    rw [← List.append_nil (tokens.map Except.ok)] at read
    rw [ofText_of_readAll nonempty read]
    simp [Except.map, pure, Except.pure]

end AmountPad.Token
