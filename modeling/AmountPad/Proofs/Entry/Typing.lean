import AmountPad.Proofs.Entry.Keys

/-!
# Typed texts stay typed

The language of typed texts is closed under keys and under taking characters
back.  Each of its texts is one of its shorter texts, or nothing, with one more
character typed behind it, so typing a text from left to right gives the text.
-/

namespace AmountPad.Entry

/-! ## Keys -/

/-- A digit completes a text that waits for one, and goes on with a number or
takes the place of its zero. -/
theorem IsTyped.isComplete_addDigit {text : Text} {digit : Char} (typed : IsTyped text)
    (isDigit : digit.isDigit = true) : IsComplete (addDigit text digit) := by
  rcases isTyped_iff.mp typed with complete | ⟨isOpen, nonempty⟩
  · by_cases isZero : text = zero
    · rw [addDigit, if_pos isZero]
      exact IsOpen.start.isComplete_append (canOpen_singleton [] digit) (.first isDigit)
    by_cases isReplaced : (isNegativeZero text && digit ≠ '0') = true
    · rw [addDigit, if_neg isZero, if_pos isReplaced]
      exact IsOpen.sign.isComplete_append (canOpen_singleton _ digit) (.first isDigit)
    rw [addDigit, if_neg isZero, if_neg isReplaced]
    obtain ⟨before, whole, number, isOpen, canOpen, grows, rfl⟩ := complete.exists_open
    rw [List.append_assoc]
    by_cases point : '.' ∈ number
    · exact isOpen.isComplete_append canOpen (.fraction grows point isDigit)
    have isWhole := grows.eq_whole point
    subst number
    refine isOpen.isComplete_append ?_ (.digit grows isDigit)
    obtain ⟨first, rest, rfl⟩ := List.exists_cons_of_ne_nil grows.ne_nil
    constructor
    · rintro rfl
      rcases canOpen.unsigned rfl with isZeroWhole | head
      · exact absurd isZeroWhole isZero
      · exact .inr (by simpa using head)
    · rintro rfl next others equal
      simp only [List.cons_append, List.cons.injEq] at equal
      rcases equal with ⟨rfl, restEq⟩
      cases rest with
      | nil =>
          -- the text is a negative zero, so only another zero goes behind it
          simp only [List.nil_append, List.cons.injEq] at restEq
          rw [← restEq.1]
          by_contra notZeroDigit
          exact isReplaced (by simp [isNegativeZero, isMinus_glyph_iff, notZeroDigit])
      | cons second rest =>
          simp only [List.cons_append, List.cons.injEq] at restEq
          rw [← restEq.1]
          exact canOpen.signed rfl second rest rfl
  · have added := isOpen.addDigit_eq digit
    rw [orZero_of_ne_nil nonempty] at added
    rw [added]
    exact isOpen.isComplete_append (canOpen_singleton _ digit) (.first isDigit)

/-- A point completes a text that waits for a number, and is ignored by a number
that has one. -/
theorem IsTyped.isComplete_addPoint {text : Text} (typed : IsTyped text) :
    IsComplete (addPoint text) := by
  rcases isTyped_iff.mp typed with complete | ⟨isOpen, nonempty⟩
  · obtain ⟨before, whole, number, isOpen, canOpen, grows, rfl⟩ := complete.exists_open
    by_cases point : '.' ∈ number
    · rw [isOpen.addPoint_of_point grows point]
      exact complete
    · rw [isOpen.addPoint_append grows point, List.append_assoc]
      have isWhole := grows.eq_whole point
      subst number
      exact isOpen.isComplete_append canOpen (.point grows)
  · rw [isOpen.addPoint_eq nonempty]
    have zeroGrows : Grows zero ['0'] := .first rfl
    exact isOpen.isComplete_append (canOpen_singleton _ '0') (.point zeroGrows)

/-- An operator opens a complete text, and replaces the operators of an open
one. -/
theorem IsTyped.addOperator {text : Text} (typed : IsTyped text) (operator : Operator) :
    IsTyped (addOperator text operator) := by
  cases typed with
  | sign => cases operator <;> exact .sign
  | complete complete =>
      by_cases canFollow : CanFollow text operator
      · rw [complete.addOperator_eq canFollow]
        exact .operator operator complete canFollow
      · simp only [CanFollow, not_forall, not_not] at canFollow
        rcases canFollow with ⟨rfl, rfl⟩
        exact .sign
  | @operator front held complete canFollow =>
      have isOpen := IsOpen.operator held complete canFollow
      rw [isOpen.addOperator_eq (by simp) (complete.append_cons_ne _ _ _),
        dropReplaced_operator complete.endsInMark_eq_false]
      split
      · rename_i signed
        rw [signed.1, List.append_assoc]
        exact .operatorSign held complete signed.2
      · rename_i replaced
        apply IsTyped.operator operator complete
        intro isZero isMinus
        have heldMinus : held ≠ .minus := canFollow isZero
        exact replaced ⟨isMinus, heldMinus⟩
  | @operatorSign front held complete notMinus =>
      have isOpen := IsOpen.operatorSign held complete notMinus
      rw [isOpen.addOperator_eq (by simp) (complete.append_cons_ne _ _ _),
        dropReplaced_operatorSign]
      split
      · rename_i isMinus
        rw [isMinus, List.append_assoc]
        exact .operatorSign held complete notMinus
      · rename_i isOther
        exact .operator operator complete fun _ => isOther

theorem type_of_isDigit {text : Text} {digit : Char} (nonempty : text ≠ [])
    (isDigit : digit.isDigit = true) : type text digit = addDigit text digit := by
  rw [type, ofChar?_of_isDigit isDigit]
  exact congrArg (addDigit · digit) (orZero_of_ne_nil nonempty)

theorem type_point {text : Text} (nonempty : text ≠ []) :
    type text '.' = addPoint text := by
  rw [type, ofChar?_point]
  exact congrArg addPoint (orZero_of_ne_nil nonempty)

theorem type_glyph {text : Text} (nonempty : text ≠ []) (operator : Operator) :
    type text operator.glyph = addOperator text operator := by
  rw [type, ofChar?_glyph]
  exact congrArg (addOperator · operator) (orZero_of_ne_nil nonempty)

/-- A character that is typed leaves a text that can be typed. -/
theorem IsTyped.type {text : Text} (typed : IsTyped text) (c : Char) :
    IsTyped (type text c) := by
  unfold Entry.type
  split
  · rename_i key isKey
    rw [press.eq_def, orZero_of_ne_nil typed.ne_nil]
    cases key with
    | digit digit =>
        exact .complete (typed.isComplete_addDigit (isDigit_of_ofChar? isKey))
    | point => exact .complete typed.isComplete_addPoint
    | operator operator => exact typed.addOperator operator
  · rw [orZero_of_ne_nil typed.ne_nil]
    exact typed

/-! ## The last character -/

/-- A typed text comes from a shorter one, or from nothing, by its last
character. -/
theorem IsTyped.exists_shorter {text : Text} (typed : IsTyped text) :
    ∃ front c, text = front ++ [c] ∧ (front = [] ∨ IsTyped front) ∧
      Entry.type front c = text := by
  rcases isTyped_iff.mp typed with complete | ⟨isOpen, nonempty⟩
  · obtain ⟨before, whole, number, isOpen, canOpen, grows, rfl⟩ := complete.exists_open
    cases grows with
    | @first digit isDigit =>
        refine ⟨before, digit, rfl, ?_, ?_⟩
        · by_cases isStart : before = []
          · exact .inl isStart
          · exact .inr (isTyped_iff.mpr (.inr ⟨isOpen, isStart⟩))
        · rw [Entry.type, ofChar?_of_isDigit isDigit]
          exact isOpen.addDigit_eq digit
    | @digit whole digit grows isDigit =>
        have shorter := isOpen.isComplete_append (canOpen.of_append grows.ne_nil) grows
        refine ⟨before ++ whole, digit, by simp, .inr (.complete shorter), ?_⟩
        rw [type_of_isDigit shorter.ne_nil isDigit,
          isOpen.addDigit_append canOpen (.digit grows isDigit) grows isDigit,
          List.append_assoc]
    | point grows =>
        have shorter := isOpen.isComplete_append canOpen grows
        have noPoint : '.' ∉ whole :=
          fun point => ne_point_of_isDigit (grows.isDigit_whole '.' point) rfl
        refine ⟨before ++ whole, '.', by simp, .inr (.complete shorter), ?_⟩
        rw [type_point shorter.ne_nil, isOpen.addPoint_append grows noPoint,
          List.append_assoc]
    | @fraction _ number digit grows point isDigit =>
        have shorter := isOpen.isComplete_append canOpen grows
        refine ⟨before ++ number, digit, by simp, .inr (.complete shorter), ?_⟩
        rw [type_of_isDigit shorter.ne_nil isDigit,
          isOpen.addDigit_append canOpen (.fraction grows point isDigit) grows isDigit,
          List.append_assoc]
  · cases isOpen with
    | start => exact absurd rfl nonempty
    | sign => exact ⟨[], Operator.minus.glyph, rfl, .inl rfl, rfl⟩
    | operator operator complete canFollow =>
        refine ⟨_, operator.glyph, rfl, .inr (.complete complete), ?_⟩
        rw [type_glyph complete.ne_nil, complete.addOperator_eq canFollow]
    | @operatorSign front held complete notMinus =>
        have isOpen := IsOpen.operator held complete fun _ => notMinus
        refine ⟨front ++ [held.glyph], Operator.minus.glyph, by simp,
          .inr (isTyped_iff.mpr (.inr ⟨isOpen, by simp⟩)), ?_⟩
        rw [type_glyph (by simp),
          isOpen.addOperator_eq (by simp) (complete.append_cons_ne _ _ _),
          dropReplaced_operator complete.endsInMark_eq_false,
          if_pos ⟨rfl, notMinus⟩, List.append_assoc]
        rfl

/-- Taking the last character back leaves a text that can be typed. -/
theorem IsTyped.erase {text : Text} (typed : IsTyped text) : IsTyped (erase text) := by
  obtain ⟨front, c, rfl, shorter, _⟩ := typed.exists_shorter
  rw [Entry.erase, List.dropLast_concat]
  split
  · exact isTyped_zero
  · rename_i kept
    rcases shorter with isEmpty | typedFront
    · simp [isEmpty] at kept
    · exact typedFront

/-- Typing a typed text from left to right gives the text. -/
theorem IsTyped.foldl_type {text : Text} (typed : IsTyped text) :
    text.foldl Entry.type zero = text := by
  induction text using List.reverseRecOn with
  | nil => exact absurd rfl typed.ne_nil
  | append_singleton front c inductionHypothesis =>
      obtain ⟨shorter, last, equal, shorterTyped, typedLast⟩ := typed.exists_shorter
      obtain ⟨rfl, rfl⟩ := List.append_singleton_inj.mp equal
      rw [List.foldl_append, List.foldl_cons, List.foldl_nil]
      rcases shorterTyped with rfl | shorterTyped
      · exact typedLast
      · rw [inductionHypothesis shorterTyped, typedLast]

end AmountPad.Entry
