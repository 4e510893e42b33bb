import AmountPad.Calculation
import AmountPad.Entry.Edit
import AmountPad.Proofs.Spelling
import Mathlib.Data.List.Forall2

/-!
# Editing does not depend on the spelling of operators

No rule of editing tells the two spellings of an operator apart.  So an edit of a text
and the same edit of its respelling differ in nothing but spelling, although what was in
the text keeps its spelling and what is added is written in glyphs.

The spelling of a text is a property of its characters, so all of this is said of the
text with `plainChar` taken of each character.  Only a text without blanks has this as
its plain spelling: a blank beside a lone zero keeps a digit from taking its place.
-/

namespace AmountPad

/-! ## Characters -/

@[simp]
theorem plainChar_plainChar (c : Char) : plainChar (plainChar c) = plainChar c :=
  apply_plainChar (fun operator => by cases operator <;> rfl) c

@[simp]
theorem plainChar_comp_plainChar : plainChar ∘ plainChar = plainChar :=
  funext plainChar_plainChar

@[simp]
theorem isBlank_plainChar (c : Char) : isBlank (plainChar c) = isBlank c :=
  apply_plainChar (fun operator => by cases operator <;> rfl) c

@[simp]
theorem isMinus_plainChar (c : Char) : isMinus (plainChar c) = isMinus c :=
  apply_plainChar (fun operator => by cases operator <;> rfl) c

/-! ## Texts -/

/-- The plain spelling of a text does not depend on its spelling. -/
@[simp]
theorem plain_map_plainChar (text : Text) : plain (text.map plainChar) = plain text := by
  simp only [plain, List.filter_map, List.map_map, Function.comp_def, plainChar_plainChar,
    isBlank_plainChar]

namespace Entry

variable (text : Text)

theorem map_plainChar_eq_zero_iff : text.map plainChar = zero ↔ text = zero := by
  cases text with
  | nil => simp
  | cons c rest => simp [zero, plainChar_eq_iff isLiteralChar_zero]

@[simp]
theorem orZero_map_plainChar : orZero (text.map plainChar) = (orZero text).map plainChar := by
  have zeroEq : zero.map plainChar = zero := (map_plainChar_eq_zero_iff zero).mpr rfl
  by_cases isEmpty : text = []
  · rw [isEmpty]
    exact zeroEq.symm
  · simp [orZero, isEmpty]

@[simp]
theorem isLoneMinus_map_plainChar : isLoneMinus (text.map plainChar) = isLoneMinus text := by
  rcases text with _ | ⟨c, _ | ⟨d, rest⟩⟩
  · rfl
  · exact isMinus_plainChar c
  · rfl

@[simp]
theorem isNegativeZero_map_plainChar :
    isNegativeZero (text.map plainChar) = isNegativeZero text := by
  rcases text with _ | ⟨c, _ | ⟨d, _ | ⟨e, rest⟩⟩⟩
  · rfl
  · rfl
  · simp [isNegativeZero, plainChar_eq_iff isLiteralChar_zero]
  · rfl

@[simp]
theorem endsInMark_map_plainChar : endsInMark (text.map plainChar) = endsInMark text := by
  rw [endsInMark, endsInMark, List.getLast?_map]
  cases text.getLast? with
  | none => rfl
  | some last => exact isMark_plainChar last

@[simp]
theorem lastSegment_map_plainChar : lastSegment (text.map plainChar) = lastSegment text := by
  rw [lastSegment, plain_map_plainChar, lastSegment]

/-! ## Keys -/

theorem addDigit_map_plainChar (digit : Char) :
    (addDigit (text.map plainChar) digit).map plainChar =
      (addDigit text digit).map plainChar := by
  simp only [addDigit, map_plainChar_eq_zero_iff, isNegativeZero_map_plainChar]
  split
  · rfl
  · split
    · rfl
    · simp

theorem addPoint_map_plainChar :
    (addPoint (text.map plainChar)).map plainChar = (addPoint text).map plainChar := by
  simp only [addPoint, map_plainChar_eq_zero_iff, isLoneMinus_map_plainChar,
    endsInMark_map_plainChar, lastSegment_map_plainChar]
  split
  · rfl
  · split
    · rfl
    · split
      · simp
      · split <;> simp

/-- The operators that are replaced are the same ones. -/
theorem dropReplaced_map_plainChar (operator : Operator) :
    dropReplaced (text.map plainChar) operator =
      (dropReplaced text operator).map plainChar := by
  unfold dropReplaced
  rw [List.getLast?_map]
  cases text.getLast? with
  | none => rfl
  | some last =>
      simp only [Option.map_some, isMark_plainChar, isMinus_plainChar, ← List.map_dropLast,
        endsInMark_map_plainChar]
      split
      · rfl
      · split
        · split <;> rfl
        · split <;> rfl

theorem addOperator_map_plainChar (operator : Operator) :
    (addOperator (text.map plainChar) operator).map plainChar =
      (addOperator text operator).map plainChar := by
  simp only [addOperator, map_plainChar_eq_zero_iff, isLoneMinus_map_plainChar,
    dropReplaced_map_plainChar]
  split
  · rfl
  · split <;> simp

theorem press_map_plainChar (key : Key) :
    (press (text.map plainChar) key).map plainChar = (press text key).map plainChar := by
  cases key with
  | digit digit =>
      rw [press, orZero_map_plainChar]
      exact addDigit_map_plainChar _ digit
  | point =>
      rw [press, orZero_map_plainChar]
      exact addPoint_map_plainChar _
  | operator operator =>
      rw [press, orZero_map_plainChar]
      exact addOperator_map_plainChar _ operator

/-! ## Edits -/

/-- An edit of a text and of its respelling differ in spelling only. -/
theorem edit_map_plainChar (change : Edit) :
    (edit (text.map plainChar) change).map plainChar = (edit text change).map plainChar := by
  cases change with
  | type c =>
      rw [edit, edit, type, type]
      cases Key.ofChar? c with
      | none => simp
      | some key => exact press_map_plainChar text key
  | erase =>
      simp only [edit, erase, ← List.map_dropLast, isLoneMinus_map_plainChar,
        List.map_eq_nil_iff]
      split
      · rfl
      · simp
  | clear => rfl

/-- An edit depends on nothing but the key. -/
theorem Edit.SameKey.edit_eq {change other : Edit} (sameKey : change.SameKey other) :
    edit text change = edit text other := by
  cases sameKey with
  | type sameChar => rw [edit, edit, Entry.type, Entry.type, sameChar]
  | erase => rfl
  | clear => rfl

section Runs

variable {first second : Text} {edits others : List Edit}

/-- The same edit of two spellings of a text gives two spellings of a text. -/
theorem Edit.SameKey.map_plainChar_edit {change other : Edit} (sameKey : change.SameKey other)
    (same : first.map plainChar = second.map plainChar) :
    (edit first change).map plainChar = (edit second other).map plainChar := by
  rw [← edit_map_plainChar, same, edit_map_plainChar, sameKey.edit_eq]

/-- So do the same edits one after the other. -/
theorem map_plainChar_foldl_edit (sameKeys : List.Forall₂ Edit.SameKey edits others)
    (same : first.map plainChar = second.map plainChar) :
    (edits.foldl edit first).map plainChar = (others.foldl edit second).map plainChar := by
  induction sameKeys generalizing first second with
  | nil => exact same
  | cons sameKey _ inductionHypothesis =>
      exact inductionHypothesis (sameKey.map_plainChar_edit same)

/-- Two spellings of a text without blanks stay spellings of one text, whatever is typed in
whichever spelling and wherever characters are taken back.  So both are finished or not,
end in the same number and have the same value. -/
theorem foldl_edit_of_sameKey (firstBlank : ∀ c ∈ first, isBlank c = false)
    (secondBlank : ∀ c ∈ second, isBlank c = false) (same : plain first = plain second)
    (sameKeys : List.Forall₂ Edit.SameKey edits others) :
    let text := edits.foldl edit first
    let other := others.foldl edit second
    plain text = plain other ∧ isUnfinished text = isUnfinished other ∧
      lastSegment text = lastSegment other ∧
      calculateFinished text = calculateFinished other := by
  intro text other
  rw [plain_eq_map firstBlank, plain_eq_map secondBlank] at same
  have spelling : text.map plainChar = other.map plainChar :=
    map_plainChar_foldl_edit sameKeys same
  have plainEq : plain text = plain other := by
    rw [← plain_map_plainChar text, spelling, plain_map_plainChar]
  have unfinishedEq : isUnfinished text = isUnfinished other := by
    rw [isUnfinished, plainEq, isUnfinished]
  refine ⟨plainEq, unfinishedEq, ?_, ?_⟩
  · rw [lastSegment, plainEq, lastSegment]
  · rw [calculateFinished, unfinishedEq, calculate, Token.ofText, plainEq]
    rfl

end Runs

/-- A division that was written in ASCII stays so behind the keys that follow it, and has
the value that it has in glyphs. -/
theorem foldl_edit_of_sameKey_of_division :
    let ascii := "8/2*-".toList
    let glyphs := "8÷2×−".toList
    let edits : List Edit := [.type '+', .type '-', .erase, .type '-', .type '.', .type '5']
    let others : List Edit := [.type '+', .type '−', .erase, .type '−', .type '.', .type '5']
    ((∀ c ∈ ascii, isBlank c = false) ∧ (∀ c ∈ glyphs, isBlank c = false) ∧
        plain ascii = plain glyphs ∧ List.Forall₂ Edit.SameKey edits others) ∧
      edits.foldl edit ascii = "8/2+−0.5".toList ∧
      others.foldl edit glyphs = "8÷2+−0.5".toList ∧
      calculateFinished "8/2+−0.5".toList = calculateFinished "8÷2+−0.5".toList := by
  intro ascii glyphs edits others
  have asciiBlank : ∀ c ∈ ascii, isBlank c = false := fun c member =>
    Bool.eq_false_iff.mpr (List.any_eq_false.mp rfl c member)
  have glyphsBlank : ∀ c ∈ glyphs, isBlank c = false := fun c member =>
    Bool.eq_false_iff.mpr (List.any_eq_false.mp rfl c member)
  have same : plain ascii = plain glyphs := by decide
  have sameKeys : List.Forall₂ Edit.SameKey edits others :=
    .cons (.type rfl) (.cons (.type rfl) (.cons .erase
      (.cons (.type rfl) (.cons (.type rfl) (.cons (.type rfl) .nil)))))
  have asciiEq : edits.foldl edit ascii = "8/2+−0.5".toList := by decide
  have glyphsEq : others.foldl edit glyphs = "8÷2+−0.5".toList := by decide
  obtain ⟨_, _, _, valueEq⟩ := foldl_edit_of_sameKey asciiBlank glyphsBlank same sameKeys
  rw [asciiEq, glyphsEq] at valueEq
  exact ⟨⟨asciiBlank, glyphsBlank, same, sameKeys⟩, asciiEq, glyphsEq, valueEq⟩

end Entry

end AmountPad
