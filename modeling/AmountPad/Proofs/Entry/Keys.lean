import AmountPad.Proofs.Entry.Open

/-!
# What keys do to a typed text

A sign on its own ignores operators, and a segment with a point ignores points.
Behind an open text and a number, a digit or a point goes on with the number
unless zeros or another point stand in the way, and an operator opens the text
again.  Behind an open text, a key begins a number or changes the operators.
-/

namespace AmountPad.Entry

theorem isLoneMinus_iff {text : Text} :
    isLoneMinus text = true ↔ ∃ c, text = [c] ∧ isMinus c = true := by
  cases text with
  | nil => simp [isLoneMinus]
  | cons c rest =>
      cases rest with
      | nil => simp [isLoneMinus]
      | cons d rest => simp [isLoneMinus]

theorem isNegativeZero_iff {text : Text} :
    isNegativeZero text = true ↔ ∃ c, text = [c, '0'] ∧ isMinus c = true := by
  unfold isNegativeZero
  split
  · simp [and_comm]
  · rename_i notPair
    simp only [Bool.false_eq_true, false_iff]
    rintro ⟨c, rfl, _⟩
    exact notPair c '0' rfl

theorem orZero_of_ne_nil {text : Text} (nonempty : text ≠ []) : orZero text = text :=
  if_neg nonempty

theorem ne_zero_of_endsInMark {text : Text} (mark : endsInMark text = true) :
    text ≠ zero := by
  rintro rfl
  cases mark

/-! ## Any text -/

/-- A sign on its own ignores operators. -/
theorem addOperator_of_isLoneMinus {text : Text} (sign : isLoneMinus text = true)
    (operator : Operator) : addOperator text operator = text := by
  obtain ⟨c, rfl, minus⟩ := isLoneMinus_iff.mp sign
  have notZero : [c] ≠ zero :=
    ne_zero_of_endsInMark (by simp [endsInMark, isMark_of_isMinus minus])
  rw [addOperator, if_neg (by simp [notZero]), if_pos sign]

/-- Behind any other text, an operator that can follow takes the place of others. -/
theorem addOperator_of_canFollow {text : Text} {operator : Operator}
    (noSign : isLoneMinus text = false) (canFollow : CanFollow text operator) :
    addOperator text operator = dropReplaced text operator ++ [operator.glyph] := by
  have notSign : ¬ (text = zero && operator = .minus) = true := by
    rw [Bool.and_eq_true, decide_eq_true_eq, decide_eq_true_eq]
    rintro ⟨isZero, isMinus⟩
    exact canFollow isZero isMinus
  rw [addOperator, if_neg notSign, noSign]
  rfl

/-- A segment with a point ignores the point key. -/
theorem addPoint_of_mem {text : Text} (point : '.' ∈ lastSegment text) :
    addPoint text = text := by
  have notZero : text ≠ zero := by
    rintro rfl
    revert point
    decide
  have noMark : endsInMark text = false := by
    rw [← Bool.not_eq_true]
    intro mark
    rw [lastSegment_of_endsInMark mark] at point
    cases point
  have noSign : isLoneMinus text = false := by
    rw [← Bool.not_eq_true, isLoneMinus_iff]
    rintro ⟨c, rfl, minus⟩
    rw [← List.nil_append [c], endsInMark_append_singleton, isMark_of_isMinus minus] at noMark
    cases noMark
  rw [addPoint, if_neg notZero, noSign, noMark]
  simp [point]

/-! ## A number at the end -/

section Number

variable {before whole number : Text}

/-- A text that ends in a number has a last character of a literal. -/
theorem Grows.exists_last (grows : Grows whole number) (before : Text) :
    ∃ front c, isLiteralChar c = true ∧ before ++ number = front ++ [c] := by
  rcases List.eq_nil_or_concat number with isEmpty | ⟨front, c, rfl⟩
  · exact absurd isEmpty grows.ne_nil
  · refine ⟨before ++ front, c, ?_, by simp⟩
    exact grows.chars c (by simp)

theorem Grows.endsInMark_append (grows : Grows whole number) (before : Text) :
    endsInMark (before ++ number) = false := by
  obtain ⟨front, c, isChar, equal⟩ := grows.exists_last before
  rw [equal, endsInMark_append_singleton, isMark_eq_false_of_isLiteralChar isChar]

theorem Grows.isLoneMinus_append (grows : Grows whole number) (before : Text) :
    isLoneMinus (before ++ number) = false := by
  rw [← Bool.not_eq_true, isLoneMinus_iff]
  rintro ⟨c, isSingle, minus⟩
  have mark := grows.endsInMark_append before
  rw [isSingle, ← List.nil_append [c], endsInMark_append_singleton,
    isMark_of_isMinus minus] at mark
  cases mark

/-- Only a number is a lone zero. -/
theorem IsOpen.append_eq_zero (isOpen : IsOpen before) (grows : Grows whole number)
    (isZero : before ++ number = zero) : before = [] ∧ number = zero := by
  rcases isOpen.eq_nil_or_ends with rfl | ⟨front, operator, rfl⟩
  · exact ⟨rfl, isZero⟩
  · have tooLong := congrArg List.length isZero
    have numberLength := List.length_pos_iff.mpr grows.ne_nil
    simp only [zero, List.length_append, List.length_singleton] at tooLong
    omega

/-- Only a sign and a number are a negative zero. -/
theorem IsOpen.append_isNegativeZero (isOpen : IsOpen before)
    (grows : Grows whole number) (isZero : isNegativeZero (before ++ number) = true) :
    before = [Operator.minus.glyph] ∧ number = zero := by
  obtain ⟨c, isPair, minus⟩ := isNegativeZero_iff.mp isZero
  rcases isOpen.eq_nil_or_ends with rfl | ⟨front, operator, rfl⟩
  · have isChar := grows.chars c
      (by rw [List.nil_append] at isPair; simp [isPair])
    rw [isMinus_eq_false_of_isLiteralChar isChar] at minus
    cases minus
  · have frontEmpty : front = [] := by
      have lengths := congrArg List.length isPair
      have numberLength := List.length_pos_iff.mpr grows.ne_nil
      simp only [List.length_append, List.length_cons, List.length_nil] at lengths
      exact List.eq_nil_of_length_eq_zero (by omega)
    subst front
    simp only [List.nil_append, List.singleton_append, List.cons.injEq] at isPair
    rcases isPair with ⟨rfl, isNumber⟩
    rw [isMinus_glyph_iff.mp minus]
    exact ⟨rfl, isNumber⟩

/-- A digit goes on with a number that can have it. -/
theorem IsOpen.addDigit_append {digit : Char} (isOpen : IsOpen before)
    (canOpen : CanOpen before whole) (grows : Grows whole (number ++ [digit]))
    {wholeBefore : Text} (growsBefore : Grows wholeBefore number)
    (isDigit : digit.isDigit = true) :
    addDigit (before ++ number) digit = before ++ number ++ [digit] := by
  have wholeOfZero : number = zero → whole = ['0', digit] := by
    rintro rfl
    exact (grows.eq_whole (by simp [zero, (ne_point_of_isDigit isDigit).symm])).symm
  have notZero : before ++ number ≠ zero := by
    intro isZero
    obtain ⟨isStart, numberZero⟩ := isOpen.append_eq_zero growsBefore isZero
    have restricted := canOpen.unsigned isStart
    rw [wholeOfZero numberZero] at restricted
    simp [zero] at restricted
  have notReplaced :
      (isNegativeZero (before ++ number) && digit ≠ '0') = false := by
    rw [← Bool.not_eq_true, Bool.and_eq_true]
    rintro ⟨isZero, notZeroDigit⟩
    obtain ⟨isSign, numberZero⟩ := isOpen.append_isNegativeZero growsBefore isZero
    have isZeroDigit :=
      canOpen.signed isSign digit [] (wholeOfZero numberZero)
    simp [isZeroDigit] at notZeroDigit
  rw [addDigit, if_neg notZero, notReplaced]
  rfl

/-- A point goes behind a number without one. -/
theorem IsOpen.addPoint_append (isOpen : IsOpen before) (grows : Grows whole number)
    (noPoint : '.' ∉ number) :
    addPoint (before ++ number) = before ++ number ++ ['.'] := by
  have segment := isOpen.lastSegment_append grows.chars
  rw [addPoint, grows.isLoneMinus_append, grows.endsInMark_append, segment]
  split
  · rename_i isZero
    rw [isZero]
    rfl
  · simp [noPoint]

/-- A second point is ignored. -/
theorem IsOpen.addPoint_of_point (isOpen : IsOpen before) (grows : Grows whole number)
    (point : '.' ∈ number) : addPoint (before ++ number) = before ++ number := by
  apply addPoint_of_mem
  rw [isOpen.lastSegment_append grows.chars]
  exact point

end Number

theorem IsComplete.isLoneMinus_eq_false {text : Text} (complete : IsComplete text) :
    isLoneMinus text = false := by
  obtain ⟨before, _, _, _, _, grows, rfl⟩ := complete.exists_open
  exact grows.isLoneMinus_append before

theorem IsComplete.endsInMark_eq_false {text : Text} (complete : IsComplete text) :
    endsInMark text = false := by
  obtain ⟨before, _, _, _, _, grows, rfl⟩ := complete.exists_open
  exact grows.endsInMark_append before

/-- Behind a number, no operator is replaced. -/
theorem IsComplete.dropReplaced_eq {text : Text} (complete : IsComplete text)
    (operator : Operator) : dropReplaced text operator = text := by
  obtain ⟨before, _, _, _, _, grows, rfl⟩ := complete.exists_open
  obtain ⟨front, c, isChar, equal⟩ := grows.exists_last before
  rw [equal, dropReplaced, List.getLast?_concat]
  simp [isMark_eq_false_of_isLiteralChar isChar]

/-- An operator that can follow goes behind a number. -/
theorem IsComplete.addOperator_eq {text : Text} {operator : Operator}
    (complete : IsComplete text) (canFollow : CanFollow text operator) :
    addOperator text operator = text ++ [operator.glyph] := by
  rw [addOperator_of_canFollow complete.isLoneMinus_eq_false canFollow,
    complete.dropReplaced_eq]

/-! ## An open end -/

theorem IsOpen.endsInMark {before : Text} (isOpen : IsOpen before)
    (nonempty : before ≠ []) : endsInMark before = true := by
  rcases isOpen.eq_nil_or_ends with isEmpty | ⟨front, operator, rfl⟩
  · exact absurd isEmpty nonempty
  · simp

/-- A lone sign is written with the glyph. -/
theorem IsOpen.eq_sign {before : Text} (isOpen : IsOpen before)
    (isSign : isLoneMinus before = true) : before = [Operator.minus.glyph] := by
  obtain ⟨c, rfl, minus⟩ := isLoneMinus_iff.mp isSign
  rcases isOpen.eq_nil_or_ends with isEmpty | ⟨front, operator, equal⟩
  · cases isEmpty
  · rw [← List.nil_append [c], List.append_singleton_inj] at equal
    rw [equal.2] at minus ⊢
    rw [isMinus_glyph_iff.mp minus]

/-- A digit begins a number. -/
theorem IsOpen.addDigit_eq {before : Text} (isOpen : IsOpen before) (digit : Char) :
    addDigit (orZero before) digit = before ++ [digit] := by
  by_cases isStart : before = []
  · subst before
    rfl
  · have mark := isOpen.endsInMark isStart
    have notReplaced : isNegativeZero before = false := by
      rw [← Bool.not_eq_true, isNegativeZero_iff]
      rintro ⟨c, rfl, _⟩
      cases mark
    rw [orZero_of_ne_nil isStart, addDigit, if_neg (ne_zero_of_endsInMark mark),
      notReplaced]
    rfl

/-- A point begins a number with a zero in front of it. -/
theorem IsOpen.addPoint_eq {before : Text} (isOpen : IsOpen before)
    (nonempty : before ≠ []) : addPoint before = before ++ ['0', '.'] := by
  have mark := isOpen.endsInMark nonempty
  rw [addPoint, if_neg (ne_zero_of_endsInMark mark), mark]
  by_cases isSign : isLoneMinus before = true
  · rw [isOpen.eq_sign isSign]
    rfl
  · rw [if_neg isSign]
    rfl

/-- A minus goes behind any other operator, and any other change replaces. -/
theorem dropReplaced_operator {text : Text} (noMark : endsInMark text = false)
    (held operator : Operator) :
    dropReplaced (text ++ [held.glyph]) operator =
      if operator = .minus ∧ held ≠ .minus then text ++ [held.glyph] else text := by
  simp only [dropReplaced, List.getLast?_concat, isMark_glyph, Bool.not_true,
    Bool.false_eq_true, if_false, List.dropLast_concat, noMark, Bool.and_false]
  by_cases isSign : operator = .minus
  · by_cases sameSign : held = .minus
    · simp [isSign, sameSign, isMinus_glyph_iff]
    · simp [isSign, sameSign, isMinus_glyph_iff]
  · simp [isSign]

/-- A sign is replaced together with the operator before it. -/
theorem dropReplaced_operatorSign (text : Text) (held operator : Operator) :
    dropReplaced (text ++ [held.glyph, Operator.minus.glyph]) operator =
      if operator = .minus then text ++ [held.glyph] else text := by
  have split : text ++ [held.glyph, Operator.minus.glyph] =
      text ++ [held.glyph] ++ [Operator.minus.glyph] := by
    simp
  have isSign : isMinus Operator.minus.glyph = true := rfl
  simp only [split, dropReplaced, List.getLast?_concat, isMark_glyph, Bool.not_true,
    Bool.false_eq_true, if_false, List.dropLast_concat, endsInMark_append_singleton,
    isSign, Bool.and_true, if_true]

/-- An operator behind an open text other than a sign. -/
theorem IsOpen.addOperator_eq {before : Text} (isOpen : IsOpen before)
    (nonempty : before ≠ []) (noSign : before ≠ [Operator.minus.glyph])
    (operator : Operator) :
    addOperator before operator = dropReplaced before operator ++ [operator.glyph] := by
  have notZero := ne_zero_of_endsInMark (isOpen.endsInMark nonempty)
  apply addOperator_of_canFollow
  · rw [← Bool.not_eq_true]
    exact fun isSign => noSign (isOpen.eq_sign isSign)
  · exact fun isZero => absurd isZero notZero

end AmountPad.Entry
