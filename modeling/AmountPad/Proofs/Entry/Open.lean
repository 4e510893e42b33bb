import AmountPad.Proofs.Entry.Numeral

/-!
# Where a number begins

A text that can be typed waits for a number, or ends in one.  What stands in
front of that number is open: it is empty, a sign, or a chain with an operator
behind it.  The number being typed is all that follows, so a key at the end of
the text changes the number or the operators in front of it.
-/

namespace AmountPad.Entry

/-- A text that waits for a number. -/
inductive IsOpen : Text → Prop where
  | start : IsOpen []
  | sign : IsOpen [Operator.minus.glyph]
  | operator {text} (operator : Operator) :
      IsComplete text → CanFollow text operator → IsOpen (text ++ [operator.glyph])
  | operatorSign {text} (operator : Operator) :
      IsComplete text → operator ≠ .minus →
        IsOpen (text ++ [operator.glyph, Operator.minus.glyph])

/-- Whether a number with the given digits before the point can stand behind an
open text.  Only the first number of a text restricts its zeros. -/
structure CanOpen (before whole : Text) : Prop where
  unsigned : before = [] → whole = zero ∨ whole.head? ≠ some '0'
  signed : before = [Operator.minus.glyph] →
    ∀ digit rest, whole = '0' :: digit :: rest → digit = '0'

/-- A number that has just begun can stand anywhere. -/
theorem canOpen_singleton (before : Text) (digit : Char) : CanOpen before [digit] := by
  constructor
  · intro _
    by_cases isZero : digit = '0'
    · exact .inl (by rw [isZero, zero])
    · exact .inr (by simpa using isZero)
  · intro _ _ _ equal
    cases equal

/-- Fewer digits are allowed where more are. -/
theorem CanOpen.of_append {before whole : Text} {digit : Char} (nonempty : whole ≠ [])
    (canOpen : CanOpen before (whole ++ [digit])) : CanOpen before whole := by
  obtain ⟨first, rest, rfl⟩ := List.exists_cons_of_ne_nil nonempty
  constructor
  · intro isStart
    rcases canOpen.unsigned isStart with isZero | head
    · simp [zero] at isZero
    · exact .inr (by simpa using head)
  · intro isSign next others equal
    apply canOpen.signed isSign next (others ++ [digit])
    rw [equal]
    rfl

/-- What precedes a number is nothing or ends in an operator. -/
theorem IsOpen.eq_nil_or_ends {before : Text} (isOpen : IsOpen before) :
    before = [] ∨ ∃ front operator, before = front ++ [Operator.glyph operator] := by
  cases isOpen with
  | start => exact .inl rfl
  | sign => exact .inr ⟨[], .minus, rfl⟩
  | operator operator => exact .inr ⟨_, operator, rfl⟩
  | @operatorSign text operator =>
      exact .inr ⟨text ++ [operator.glyph], .minus, by simp⟩

/-- A number behind an open text completes it. -/
theorem IsOpen.isComplete_append {before whole number : Text} (isOpen : IsOpen before)
    (canOpen : CanOpen before whole) (grows : Grows whole number) :
    IsComplete (before ++ number) := by
  have numeral := grows.isNumeral
  cases isOpen with
  | start => exact .unsigned numeral (canOpen.unsigned rfl)
  | sign => exact .signed numeral (canOpen.signed rfl)
  | operator operator complete canFollow =>
      rw [List.append_assoc]
      exact .extend operator complete canFollow numeral
  | operatorSign operator complete notMinus =>
      rw [List.append_assoc]
      exact .extendSigned operator complete notMinus numeral

/-- A chain holds at least one character. -/
theorem IsComplete.ne_nil {text : Text} (complete : IsComplete text) : text ≠ [] := by
  cases complete with
  | unsigned numeral => exact numeral.grows.ne_nil
  | signed => simp
  | extend => simp
  | extendSigned => simp

/-- A chain and more is longer than one character. -/
theorem IsComplete.append_cons_ne {text : Text} (complete : IsComplete text)
    (c d : Char) (rest : Text) : text ++ c :: rest ≠ [d] := by
  intro isSingle
  have lengths := congrArg List.length isSingle
  have positive := List.length_pos_iff.mpr complete.ne_nil
  simp only [List.length_append, List.length_cons, List.length_nil] at lengths
  omega

/-- A complete text is an open text and a number. -/
theorem IsComplete.exists_open {text : Text} (complete : IsComplete text) :
    ∃ before whole number,
      IsOpen before ∧ CanOpen before whole ∧ Grows whole number ∧
        text = before ++ number := by
  cases complete with
  | @unsigned whole _ numeral zeros =>
      refine ⟨[], whole, text, .start, ⟨fun _ => zeros, ?_⟩, numeral.grows, rfl⟩
      intro isSign
      cases isSign
  | @signed whole number numeral zeros =>
      refine ⟨[Operator.minus.glyph], whole, number, .sign, ⟨?_, fun _ => zeros⟩,
        numeral.grows, rfl⟩
      intro isStart
      cases isStart
  | @extend front whole number operator complete canFollow numeral =>
      refine ⟨front ++ [operator.glyph], whole, number,
        .operator operator complete canFollow, ⟨?_, ?_⟩, numeral.grows, by simp⟩
      · simp
      · intro isSign
        exact absurd isSign (complete.append_cons_ne _ _ _)
  | @extendSigned front whole number operator complete notMinus numeral =>
      refine ⟨front ++ [operator.glyph, Operator.minus.glyph], whole, number,
        .operatorSign operator complete notMinus, ⟨?_, ?_⟩, numeral.grows, by simp⟩
      · simp
      · intro isSign
        exact absurd isSign (complete.append_cons_ne _ _ _)

/-- A text can be typed if it is complete, or if it is open and not empty. -/
theorem isTyped_iff {text : Text} :
    IsTyped text ↔ IsComplete text ∨ IsOpen text ∧ text ≠ [] := by
  constructor
  · intro typed
    cases typed with
    | sign => exact .inr ⟨.sign, by simp⟩
    | complete complete => exact .inl complete
    | operator operator complete canFollow =>
        exact .inr ⟨.operator operator complete canFollow, by simp⟩
    | operatorSign operator complete notMinus =>
        exact .inr ⟨.operatorSign operator complete notMinus, by simp⟩
  · rintro (complete | ⟨isOpen, nonempty⟩)
    · exact .complete complete
    · cases isOpen with
      | start => exact absurd rfl nonempty
      | sign => exact .sign
      | operator operator complete canFollow =>
          exact .operator operator complete canFollow
      | operatorSign operator complete notMinus =>
          exact .operatorSign operator complete notMinus

theorem IsTyped.ne_nil {text : Text} (typed : IsTyped text) : text ≠ [] := by
  rcases isTyped_iff.mp typed with complete | ⟨_, nonempty⟩
  · exact complete.ne_nil
  · exact nonempty

/-! ## The last segment -/

@[simp]
theorem endsInMark_append_singleton (front : Text) (c : Char) :
    endsInMark (front ++ [c]) = isMark c := by
  simp [endsInMark]

/-- Digits and points at the end of a text belong to its last segment. -/
theorem lastSegment_append {chars : Text} (areChars : ∀ c ∈ chars, isLiteralChar c = true)
    (front : Text) : lastSegment (front ++ chars) = lastSegment front ++ chars := by
  have inSegment : ∀ c ∈ chars.reverse, (!isSymbol c) = true := by
    intro c member
    rw [isSymbol_eq_false_of_isLiteralChar (areChars c (List.mem_reverse.mp member))]
    rfl
  rw [lastSegment, lastSegment, plain_append, plain_eq_self_of_isLiteralChar areChars,
    List.reverse_append, List.takeWhile_append_of_pos inSegment, List.reverse_append,
    List.reverse_reverse]

/-- Nothing follows an operator at the end of a text. -/
theorem lastSegment_of_endsInMark {text : Text} (mark : endsInMark text = true) :
    lastSegment text = [] := by
  rcases List.eq_nil_or_concat text with rfl | ⟨front, last, rfl⟩
  · cases mark
  rw [List.concat_eq_append] at mark ⊢
  rw [endsInMark_append_singleton] at mark
  have plainLast : ∃ operator : Operator, plain [last] = [operator.symbol] := by
    obtain ⟨operator, rfl | rfl⟩ := isMark_iff.mp mark
    · exact ⟨operator, plain_glyph_cons operator []⟩
    · exact ⟨operator, by cases operator <;> decide⟩
  obtain ⟨operator, plainEq⟩ := plainLast
  simp [lastSegment, plain_append, plainEq]

/-- The last number segment is the number behind an open text. -/
theorem IsOpen.lastSegment_append {before number : Text} (isOpen : IsOpen before)
    (chars : ∀ c ∈ number, isLiteralChar c = true) :
    lastSegment (before ++ number) = number := by
  rw [Entry.lastSegment_append chars]
  rcases isOpen.eq_nil_or_ends with rfl | ⟨front, operator, rfl⟩
  · rfl
  · rw [lastSegment_of_endsInMark (by simp), List.nil_append]

end AmountPad.Entry
