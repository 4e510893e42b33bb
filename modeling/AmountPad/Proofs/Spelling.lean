import AmountPad.Key
import AmountPad.Spelling
import AmountPad.Token

/-!
# Classes of characters

The characters of a literal, the operators in either spelling and the blank
characters are apart from each other.  So literals are kept by the plain
spelling, and an operator is never taken for the end of a number.
-/

namespace AmountPad

theorem isLiteralChar_iff {c : Char} :
    isLiteralChar c = true ↔ c.isDigit = true ∨ c = '.' := by
  simp [isLiteralChar]

theorem isLiteralChar_of_isDigit {c : Char} (isDigit : c.isDigit = true) :
    isLiteralChar c = true :=
  isLiteralChar_iff.mpr (.inl isDigit)

@[simp]
theorem isLiteralChar_point : isLiteralChar '.' = true :=
  rfl

@[simp]
theorem isLiteralChar_zero : isLiteralChar '0' = true :=
  rfl

theorem ne_point_of_isDigit {c : Char} (isDigit : c.isDigit = true) : c ≠ '.' := by
  rintro rfl
  cases isDigit

/-- An operator has no other spellings than its glyph and its symbol. -/
theorem isMark_iff {c : Char} :
    isMark c = true ↔ ∃ operator : Operator, c = operator.glyph ∨ c = operator.symbol := by
  simp only [isMark, Option.isSome_iff_exists, Operator.ofMark?, Option.or_eq_some_iff,
    Operator.ofGlyph?_eq_some_iff, Operator.ofSymbol?_eq_some_iff]
  constructor
  · rintro ⟨operator, isGlyph | ⟨_, isSymbol⟩⟩
    · exact ⟨operator, .inl isGlyph⟩
    · exact ⟨operator, .inr isSymbol⟩
  · rintro ⟨operator, rfl | rfl⟩
    · exact ⟨operator, .inl rfl⟩
    · cases operator
      · exact ⟨.plus, .inl rfl⟩
      all_goals exact ⟨_, .inr ⟨rfl, rfl⟩⟩

@[simp]
theorem isMark_glyph (operator : Operator) : isMark operator.glyph = true :=
  isMark_iff.mpr ⟨operator, .inl rfl⟩

theorem isMinus_glyph_iff {operator : Operator} :
    isMinus operator.glyph = true ↔ operator = .minus := by
  cases operator <;> decide

theorem isMark_of_isMinus {c : Char} (minus : isMinus c = true) : isMark c = true := by
  simp only [isMinus, decide_eq_true_eq] at minus
  rw [isMark, minus]
  rfl

/-- No operator is a character of a literal. -/
theorem isMark_eq_false_of_isLiteralChar {c : Char} (isChar : isLiteralChar c = true) :
    isMark c = false := by
  cases mark : isMark c with
  | false => rfl
  | true =>
      rcases isMark_iff.mp mark with ⟨operator, rfl | rfl⟩ <;>
        cases operator <;> cases isChar

theorem isMinus_eq_false_of_isLiteralChar {c : Char} (isChar : isLiteralChar c = true) :
    isMinus c = false := by
  cases minus : isMinus c with
  | false => rfl
  | true =>
      have mark := isMark_of_isMinus minus
      rw [isMark_eq_false_of_isLiteralChar isChar] at mark
      cases mark

@[simp]
theorem isLiteralChar_symbol (operator : Operator) :
    isLiteralChar operator.symbol = false := by
  cases operator <;> rfl

/-- No character of a literal is an operator symbol. -/
theorem ofSymbol?_eq_none_of_isLiteralChar {c : Char}
    (isChar : isLiteralChar c = true) : Operator.ofSymbol? c = none := by
  cases read : Operator.ofSymbol? c with
  | none => rfl
  | some operator =>
      rw [Operator.ofSymbol?_eq_some_iff.mp read, isLiteralChar_symbol] at isChar
      cases isChar

theorem isSymbol_eq_false_of_isLiteralChar {c : Char} (isChar : isLiteralChar c = true) :
    isSymbol c = false := by
  rw [isSymbol, ofSymbol?_eq_none_of_isLiteralChar isChar]
  rfl

@[simp]
theorem isSymbol_symbol (operator : Operator) : isSymbol operator.symbol = true := by
  simp [isSymbol]

/-- What does not tell the two spellings of an operator apart does not tell a character
from its plain spelling. -/
theorem apply_plainChar {α : Type} {f : Char → α}
    (same : ∀ operator : Operator, f operator.symbol = f operator.glyph) (c : Char) :
    f (plainChar c) = f c := by
  cases read : Operator.ofGlyph? c with
  | none => rw [plainChar, read, Option.elim_none]
  | some operator =>
      rw [Operator.ofGlyph?_eq_some_iff.mp read, plainChar_glyph]
      exact same operator

/-- What is no operator in any spelling has itself as its plain spelling. -/
theorem plainChar_eq_self_of_not_isMark {c : Char} (noMark : isMark c = false) :
    plainChar c = c := by
  cases read : Operator.ofGlyph? c with
  | none => rw [plainChar, read, Option.elim_none]
  | some operator =>
      rw [Operator.ofGlyph?_eq_some_iff.mp read, isMark_glyph] at noMark
      cases noMark

@[simp]
theorem isMark_plainChar (c : Char) : isMark (plainChar c) = isMark c :=
  apply_plainChar (fun operator => by cases operator <;> rfl) c

/-- The characters of a literal have no other spelling. -/
theorem plainChar_eq_iff {c d : Char} (isChar : isLiteralChar d = true) :
    plainChar c = d ↔ c = d := by
  have noMark := isMark_eq_false_of_isLiteralChar isChar
  constructor
  · intro same
    have notMark : isMark c = false := by rw [← isMark_plainChar, same, noMark]
    rw [← same, plainChar_eq_self_of_not_isMark notMark]
  · rintro rfl
    exact plainChar_eq_self_of_not_isMark noMark

theorem isBlank_eq_false_of_isLiteralChar {c : Char} (isChar : isLiteralChar c = true) :
    isBlank c = false := by
  rcases isLiteralChar_iff.mp isChar with isDigit | rfl
  · have bounds : 48 ≤ c.toNat ∧ c.toNat ≤ 57 := by
      simpa [Char.isDigit, UInt32.le_iff_toNat_le] using isDigit
    have apart : ∀ range ∈ blankRanges, range.2 < 48 ∨ 57 < range.1 := by decide
    rw [isBlank, List.any_eq_false]
    intro range member
    have := apart range member
    simp only [Bool.and_eq_true, decide_eq_true_eq]
    omega
  · decide

@[simp]
theorem isBlank_glyph (operator : Operator) : isBlank operator.glyph = false := by
  cases operator <;> decide

/-- Without blanks the plain spelling is that of each character. -/
theorem plain_eq_map {text : Text} (noBlank : ∀ c ∈ text, isBlank c = false) :
    plain text = text.map plainChar := by
  have kept : (text.filter fun c => !isBlank c) = text := by
    rw [List.filter_eq_self]
    intro c member
    rw [noBlank c member]
    rfl
  rw [plain, kept]

/-- The plain spelling keeps literals. -/
theorem plain_eq_self_of_isLiteralChar {text : Text}
    (chars : ∀ c ∈ text, isLiteralChar c = true) : plain text = text := by
  have sameChars : ∀ c ∈ text, plainChar c = id c := fun c member =>
    plainChar_eq_self_of_not_isMark
      (isMark_eq_false_of_isLiteralChar (chars c member))
  rw [plain_eq_map fun c member => isBlank_eq_false_of_isLiteralChar (chars c member),
    List.map_congr_left sameChars, List.map_id]

@[simp]
theorem plain_glyph_cons (operator : Operator) (text : Text) :
    plain (operator.glyph :: text) = operator.symbol :: plain text := by
  simp [plain]

/-! ## Keys -/

theorem ofChar?_of_isDigit {c : Char} (isDigit : c.isDigit = true) :
    Key.ofChar? c = some (.digit c) := by
  simp [Key.ofChar?, isDigit]

/-- Only digits have a digit key. -/
theorem isDigit_of_ofChar? {c digit : Char} (isKey : Key.ofChar? c = some (.digit digit)) :
    digit.isDigit = true := by
  unfold Key.ofChar? at isKey
  split at isKey
  · rename_i isDigit
    cases isKey
    exact isDigit
  · split at isKey
    · cases isKey
    · simp at isKey

@[simp]
theorem ofChar?_point : Key.ofChar? '.' = some .point :=
  rfl

@[simp]
theorem ofChar?_glyph (operator : Operator) :
    Key.ofChar? operator.glyph = some (.operator operator) := by
  cases operator <;> rfl

/-- A character and its plain spelling have the same key. -/
@[simp]
theorem ofChar?_plainChar (c : Char) : Key.ofChar? (plainChar c) = Key.ofChar? c :=
  apply_plainChar (fun operator => by cases operator <;> rfl) c

end AmountPad
