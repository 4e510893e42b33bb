import AmountPad.Toml.Writing

/-!
# Reading a text in double quotes

A spelling of a character has no quote in it that is not escaped, so a text is cut off
behind its last spelling.  Taking the escapes out of a spelling gives back the character
and leaves nothing behind, so a text is read back however it is spelled.
-/

namespace AmountPad.Toml

/-! ## Hexadecimal digits -/

theorem IsHexDigit.hexValue?_eq {value : Nat} {c : Char} (isDigit : IsHexDigit value c) :
    hexValue? c = some value := by
  have lower : ∀ value : Fin 16, hexValue? (Nat.digitChar value) = some value.val := by decide
  have upper : ∀ value : Fin 16, hexValue? (Nat.digitChar value).toUpper = some value.val := by
    decide
  cases isDigit with
  | lower small => exact lower ⟨value, small⟩
  | upper small => exact upper ⟨value, small⟩

/-- Neither a quote nor a backslash is a digit. -/
theorem IsHexDigit.ne {value : Nat} {c : Char} (isDigit : IsHexDigit value c) :
    c ≠ '"' ∧ c ≠ '\\' := by
  constructor <;> rintro rfl <;> cases isDigit.hexValue?_eq

theorem forall_ne_of_areDigits {values : List Nat} {digits : Text}
    (areDigits : List.Forall₂ IsHexDigit values digits) :
    ∀ c ∈ digits, c ≠ '"' ∧ c ≠ '\\' := by
  induction areDigits with
  | nil => simp
  | cons isDigit _ inductionHypothesis =>
      exact List.forall_mem_cons.mpr ⟨isDigit.ne, inductionHypothesis⟩

/-! ## Cutting -/

/-- Characters other than quotes and backslashes belong to what is cut off. -/
theorem cutLine_append {chars : Text} (noMark : ∀ c ∈ chars, c ≠ '"' ∧ c ≠ '\\') (rest : Text) :
    cutLine '"' true false (chars ++ rest) =
      (cutLine '"' true false rest).map fun cut => (chars ++ cut.1, cut.2) := by
  induction chars with
  | nil => simp
  | cons c chars inductionHypothesis =>
      obtain ⟨⟨notQuote, notBackslash⟩, others⟩ := List.forall_mem_cons.mp noMark
      have goesOn : (true && !false && decide (c = '\\')) = false := by simp [notBackslash]
      rw [List.cons_append, cutLine, if_neg (by simp [notQuote]), goesOn,
        inductionHypothesis others, Option.map_map]
      rfl

/-- So does a backslash with the character behind it. -/
theorem cutLine_escape (c : Char) (rest : Text) :
    cutLine '"' true false ('\\' :: c :: rest) =
      (cutLine '"' true false rest).map fun cut => ('\\' :: c :: cut.1, cut.2) := by
  rw [cutLine, if_neg (by decide), cutLine, if_neg (by simp), Option.map_map]
  simp [prepend, Function.comp_def]

/-- A spelling belongs to what is cut off. -/
theorem Spells.cutLine_append {c : Char} {spelling : Text} (spells : Spells c spelling)
    (rest : Text) :
    cutLine '"' true false (spelling ++ rest) =
      (cutLine '"' true false rest).map fun cut => (spelling ++ cut.1, cut.2) := by
  have code (letter : Char) {values : List Nat} {digits : Text}
      (areDigits : List.Forall₂ IsHexDigit values digits) :
      cutLine '"' true false ('\\' :: letter :: digits ++ rest) =
        (cutLine '"' true false rest).map fun cut =>
          ('\\' :: letter :: digits ++ cut.1, cut.2) := by
    rw [List.cons_append, List.cons_append, cutLine_escape,
      Toml.cutLine_append (forall_ne_of_areDigits areDigits), Option.map_map]
    rfl
  cases spells with
  | self _ notQuote notBackslash =>
      exact Toml.cutLine_append (by simp [notQuote, notBackslash]) rest
  | @letter letter => exact cutLine_escape letter rest
  | shortCode areDigits => exact code 'u' areDigits
  | longCode areDigits => exact code 'U' areDigits

theorem IsEscaped.cutLine_eq {text raw : Text} (escaped : IsEscaped text raw) (rest : Text) :
    cutLine '"' true false (raw ++ '"' :: rest) = some (raw, rest) := by
  induction escaped with
  | nil => rfl
  | cons spells _ inductionHypothesis =>
      rw [List.append_assoc, spells.cutLine_append, inductionHypothesis]
      rfl

/-! ## Escapes -/

theorem ofCode?_toNat (c : Char) : ofCode? c.toNat = some c := by
  have valid : c.toNat.isValidChar := c.valid
  rw [ofCode?, dif_pos valid]
  rfl

/-- The digits of a code are taken in up to the last one. -/
theorem unescape_code {values : List Nat} {digits : Text} {more number : Nat} {c : Char}
    (areDigits : List.Forall₂ IsHexDigit values digits) (count : digits.length = more + 1)
    (codeEq : values.foldl (fun number value => 16 * number + value) number = c.toNat)
    (rest : Text) :
    unescape false (.code more number) (digits ++ rest) =
      (unescape false (.between false) rest).map (c :: ·) := by
  -- on the digits, with `number` for those that are taken in already
  induction areDigits generalizing more number with
  | nil => cases count
  | @cons value digit values digits isDigit areDigits inductionHypothesis =>
      rw [List.cons_append, unescape, isDigit.hexValue?_eq]
      cases more with
      | zero =>
          have noDigits : digits = [] := by simpa using count
          subst noDigits
          cases areDigits
          have isCode : 16 * number + value = c.toNat := codeEq
          simp only [isCode, ofCode?_toNat, List.nil_append]
      | succ more => exact inductionHypothesis (Nat.succ.inj count) codeEq

/-- A spelling is taken for its character. -/
theorem Spells.unescape_append {c : Char} {spelling : Text} (spells : Spells c spelling)
    (rest : Text) :
    unescape false (.between false) (spelling ++ rest) =
      (unescape false (.between false) rest).map (c :: ·) := by
  cases spells with
  | self isPlain _ notBackslash => simp [unescape, isPlain, notBackslash]
  | letter isLetter =>
      simp only [escapeLetters, List.mem_cons, List.not_mem_nil, or_false, Prod.mk.injEq] at isLetter
      rcases isLetter with ⟨rfl, rfl⟩ | ⟨rfl, rfl⟩ | ⟨rfl, rfl⟩ | ⟨rfl, rfl⟩ | ⟨rfl, rfl⟩ |
        ⟨rfl, rfl⟩ | ⟨rfl, rfl⟩ <;> rfl
  | shortCode areDigits count codeEq => exact unescape_code areDigits count codeEq rest
  | longCode areDigits count codeEq => exact unescape_code areDigits count codeEq rest

theorem IsEscaped.unescape_eq {text raw : Text} (escaped : IsEscaped text raw) :
    unescape false (.between false) raw = some text := by
  induction escaped with
  | nil => rfl
  | cons spells _ inductionHypothesis =>
      rw [spells.unescape_append, inductionHypothesis]
      rfl

/-- A text in double quotes is read back. -/
theorem IsEscaped.basicLine?_eq {text raw : Text} (escaped : IsEscaped text raw) (rest : Text) :
    basicLine? (raw ++ '"' :: rest) = some (text, rest) := by
  simp only [basicLine?, escaped.cutLine_eq, escaped.unescape_eq, Option.map_some]

end AmountPad.Toml
