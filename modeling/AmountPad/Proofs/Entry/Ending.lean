import AmountPad.Entry.Ending
import AmountPad.Proofs.Decimal.Canonical
import AmountPad.Proofs.Entry.Chain
import AmountPad.Proofs.Entry.Keys
import AmountPad.Proofs.Span

/-!
# Keys at the end of a text

A text that can be typed is an open text with a number behind it that may not have begun.
A digit or a point leaves the open text as it is and changes what the number is worth as
a digit or a point does.  An operator leaves all of the text but the operators at its end.
-/

namespace AmountPad.Entry

variable {text before number : Text}

/-! ## The number at the end -/

/-- A text that ends in a number, which may not have begun, behind an open text. -/
structure EndsIn (text before number : Text) : Prop where
  isOpen : IsOpen before
  begun : number = [] ∨ ∃ whole, Grows whole number
  text_eq : text = before ++ number

/-- Every typed text ends in a number that has begun or not. -/
theorem IsTyped.exists_endsIn (typed : IsTyped text) :
    ∃ before number, EndsIn text before number := by
  rcases isTyped_iff.mp typed with complete | ⟨isOpen, _⟩
  · obtain ⟨before, whole, number, isOpen, _, grows, textEq⟩ := complete.exists_open
    exact ⟨before, number, isOpen, .inr ⟨whole, grows⟩, textEq⟩
  · exact ⟨text, [], isOpen, .inl rfl, (List.append_nil text).symm⟩

namespace EndsIn

variable (endsIn : EndsIn text before number)

include endsIn

theorem chars : ∀ c ∈ number, isLiteralChar c = true := by
  rcases endsIn.begun with rfl | ⟨whole, grows⟩
  · simp
  · exact grows.chars

theorem lastSegment_eq : lastSegment text = number := by
  rw [endsIn.text_eq]
  exact endsIn.isOpen.lastSegment_append endsIn.chars

theorem beforeSegment_eq : beforeSegment text = before := by
  rw [beforeSegment, endsIn.text_eq]
  apply rdropWhile_append_of_ends
  · intro c member
    rw [isMark_eq_false_of_isLiteralChar (endsIn.chars c member)]
    rfl
  · intro c isLast
    rcases endsIn.isOpen.eq_nil_or_ends with rfl | ⟨front, operator, rfl⟩
    · cases isLast
    · rw [List.getLast?_concat, Option.mem_some] at isLast
      rw [← isLast, isMark_glyph]
      rfl

theorem text_eq_append : text = beforeSegment text ++ lastSegment text := by
  rw [endsIn.beforeSegment_eq, endsIn.lastSegment_eq]
  exact endsIn.text_eq

/-- A number that takes the place of another one in the same open text. -/
theorem numberChanged {next longer : Text} (endsLonger : EndsIn next before longer)
    (nonempty : longer ≠ []) : NumberChanged text next := by
  refine ⟨?_, endsLonger.text_eq_append, ?_⟩
  · rw [endsLonger.beforeSegment_eq, endsIn.beforeSegment_eq]
  · obtain ⟨whole, grows⟩ := endsLonger.begun.resolve_left nonempty
    rw [endsLonger.lastSegment_eq]
    exact grows.isNumeral.isLiteral

end EndsIn

/-! ## Digits and points -/

theorem Grows.exists_concat_digit {whole : Text} {digit : Char} (grows : Grows whole number)
    (isDigit : digit.isDigit = true) : ∃ longer, Grows longer (number ++ [digit]) := by
  by_cases point : '.' ∈ number
  · exact ⟨whole, .fraction grows point isDigit⟩
  · rw [grows.eq_whole point]
    exact ⟨whole ++ [digit], .digit grows.grows_whole isDigit⟩

/-- A digit goes behind the number at the end, or takes the place of its lone zero. -/
theorem EndsIn.addDigit {digit : Char} (endsIn : EndsIn text before number)
    (nonempty : text ≠ []) (isDigit : digit.isDigit = true) :
    EndsIn (addDigit text digit) before (number ++ [digit]) ∨
      number = zero ∧ EndsIn (addDigit text digit) before [digit] := by
  obtain ⟨isOpen, rfl | ⟨whole, grows⟩, rfl⟩ := endsIn
  · rw [List.append_nil] at nonempty ⊢
    have added := isOpen.addDigit_eq digit
    rw [orZero_of_ne_nil nonempty] at added
    exact .inl ⟨isOpen, .inr ⟨_, .first isDigit⟩, added⟩
  have first : ∃ whole, Grows whole [digit] := ⟨_, .first isDigit⟩
  by_cases isZero : before ++ number = zero
  · obtain ⟨rfl, numberZero⟩ := isOpen.append_eq_zero grows isZero
    refine .inr ⟨numberZero, isOpen, .inr first, ?_⟩
    rw [Entry.addDigit, if_pos isZero, List.nil_append]
  by_cases isReplaced : (isNegativeZero (before ++ number) && digit ≠ '0') = true
  · have isNegative := (Bool.and_eq_true_iff.mp isReplaced).1
    obtain ⟨rfl, numberZero⟩ := isOpen.append_isNegativeZero grows isNegative
    refine .inr ⟨numberZero, isOpen, .inr first, ?_⟩
    rw [Entry.addDigit, if_neg isZero, if_pos isReplaced]
    rfl
  · refine .inl ⟨isOpen, .inr (grows.exists_concat_digit isDigit), ?_⟩
    rw [Entry.addDigit, if_neg isZero, if_neg isReplaced, List.append_assoc]

/-- A point goes behind a number without one, which begins with a zero. -/
theorem EndsIn.addPoint (endsIn : EndsIn text before number) (nonempty : text ≠ []) :
    EndsIn (addPoint text) before
      (orZero number ++ if '.' ∈ number then [] else ['.']) := by
  obtain ⟨isOpen, rfl | ⟨whole, grows⟩, rfl⟩ := endsIn
  · rw [List.append_nil] at nonempty ⊢
    have zeroGrows : Grows zero zero := .first rfl
    exact ⟨isOpen, .inr ⟨_, .point zeroGrows⟩, isOpen.addPoint_eq nonempty⟩
  rw [orZero_of_ne_nil grows.ne_nil]
  by_cases point : '.' ∈ number
  · rw [if_pos point, List.append_nil]
    exact ⟨isOpen, .inr ⟨whole, grows⟩, isOpen.addPoint_of_point grows point⟩
  · rw [if_neg point]
    refine ⟨isOpen, .inr ⟨whole, ?_⟩, ?_⟩
    · rw [grows.eq_whole point]
      exact .point grows.grows_whole
    · rw [isOpen.addPoint_append grows point, List.append_assoc]

/-! ### Values -/

/-- A number that has not begun is worth a zero. -/
theorem literalRat_orZero (number : Text) :
    Decimal.literalRat (orZero number) = Decimal.literalRat number := by
  unfold orZero
  split
  · rename_i isEmpty
    rw [isEmpty]
    exact Decimal.literalRat_zero_cons []
  · rfl

theorem point_mem_orZero_iff (number : Text) : '.' ∈ orZero number ↔ '.' ∈ number := by
  unfold orZero
  split
  · rename_i isEmpty
    simp [isEmpty, zero]
  · rfl

/-- A digit key adds a digit to the number at the end. -/
theorem IsTyped.digitAdded (typed : IsTyped text) {digit : Nat} (small : digit < 10) :
    DigitAdded digit text (addDigit text (Nat.digitChar digit)) := by
  obtain ⟨before, number, endsIn⟩ := typed.exists_endsIn
  have added : ∃ longer, EndsIn (addDigit text (Nat.digitChar digit)) before longer ∧
      longer ≠ [] ∧
        Decimal.literalRat longer = Decimal.literalRat (number ++ [Nat.digitChar digit]) := by
    rcases endsIn.addDigit typed.ne_nil (Decimal.isDigit_digitChar small) with
      longer | ⟨rfl, replaced⟩
    · exact ⟨_, longer, by simp, rfl⟩
    · exact ⟨_, replaced, by simp, (Decimal.literalRat_zero_cons _).symm⟩
  obtain ⟨longer, endsLonger, nonempty, value⟩ := added
  refine ⟨endsIn.numberChanged endsLonger nonempty, ?_⟩
  rw [endsLonger.lastSegment_eq, endsIn.lastSegment_eq, value]
  exact Decimal.literalRat_concat_digitChar small number

/-- The point key adds a point to the number at the end, unless it has one. -/
theorem IsTyped.pointAdded (typed : IsTyped text) : PointAdded text (addPoint text) := by
  obtain ⟨before, number, endsIn⟩ := typed.exists_endsIn
  have added := endsIn.addPoint typed.ne_nil
  have changed := endsIn.numberChanged added (by simp [orZero_ne_nil])
  refine ⟨changed, ?_, Nat.le_antisymm changed.isLiteral.onePoint ?_⟩
  · rw [added.lastSegment_eq, endsIn.lastSegment_eq]
    by_cases point : '.' ∈ number
    · rw [if_pos point, List.append_nil, literalRat_orZero]
    · have noPoint := (point_mem_orZero_iff number).not.mpr point
      rw [if_neg point, Decimal.literalRat_concat_point noPoint, literalRat_orZero]
  · rw [added.lastSegment_eq]
    apply List.count_pos_iff.mpr
    by_cases point : '.' ∈ number
    · rw [if_pos point, List.append_nil]
      exact (point_mem_orZero_iff number).mpr point
    · simp [point]

/-! ## Operators -/

section Marks

variable {front marks : Text} (noMark : endsInMark front = false)

include noMark

theorem lastMarks_append (areMarks : ∀ c ∈ marks, isMark c = true) :
    lastMarks (front ++ marks) = marks :=
  rtakeWhile_append_of_ends areMarks ((Option.any_eq_false _ _).mp noMark)

theorem beforeMarks_append (areMarks : ∀ c ∈ marks, isMark c = true) :
    beforeMarks (front ++ marks) = front :=
  rdropWhile_append_of_ends areMarks ((Option.any_eq_false _ _).mp noMark)

/-- An operator in the place of all operators. -/
theorem operatorAdded_of_alone {operator : Operator} (areMarks : ∀ c ∈ marks, isMark c = true)
    (isAlone : operator ≠ .minus ∨ marks = [] ∨ marks = [Operator.minus.glyph]) :
    OperatorAdded operator (front ++ marks) (front ++ [operator.glyph]) := by
  have areNext : ∀ c ∈ [operator.glyph], isMark c = true := by simp
  refine ⟨?_, .inl ⟨?_, lastMarks_append noMark areNext⟩⟩
  · rw [beforeMarks_append noMark areNext, beforeMarks_append noMark areMarks]
  · rw [lastMarks_append noMark areMarks]
    exact isAlone

/-- A minus behind another operator. -/
theorem operatorAdded_of_sign {held : Operator} (notMinus : held ≠ .minus)
    (areMarks : ∀ c ∈ marks, isMark c = true) (head : marks.head? = some held.glyph) :
    OperatorAdded .minus (front ++ marks)
      (front ++ [held.glyph, Operator.minus.glyph]) := by
  have areNext : ∀ c ∈ [held.glyph, Operator.minus.glyph], isMark c = true := by simp
  refine ⟨?_, .inr ⟨rfl, held, notMinus, ?_, lastMarks_append noMark areNext⟩⟩
  · rw [beforeMarks_append noMark areNext, beforeMarks_append noMark areMarks]
  · rw [lastMarks_append noMark areMarks]
    exact head

end Marks

/-- An operator key adds an operator to those at the end, unless it has nothing to follow
or makes a zero a sign. -/
theorem IsTyped.operatorAdded {operator : Operator} (typed : IsTyped text)
    (noSign : text ≠ [Operator.minus.glyph]) (canFollow : CanFollow text operator) :
    OperatorAdded operator text (Entry.addOperator text operator) := by
  cases typed with
  | sign => exact absurd rfl noSign
  | complete complete =>
      have added : OperatorAdded operator (text ++ []) (text ++ [operator.glyph]) :=
        operatorAdded_of_alone complete.endsInMark_eq_false (by simp) (.inr (.inl rfl))
      rw [List.append_nil] at added
      rw [complete.addOperator_eq canFollow]
      exact added
  | @operator front held complete canFollowFront =>
      have noMark := complete.endsInMark_eq_false
      have isOpen := IsOpen.operator held complete canFollowFront
      rw [isOpen.addOperator_eq (by simp) noSign, dropReplaced_operator noMark]
      split
      · rename_i signed
        rw [signed.1, List.append_assoc]
        exact operatorAdded_of_sign noMark signed.2 (by simp) rfl
      · rename_i replaced
        apply operatorAdded_of_alone noMark (by simp)
        by_cases isMinus : operator = .minus
        · have heldMinus : held = .minus := not_not.mp fun notMinus => replaced ⟨isMinus, notMinus⟩
          exact .inr (.inr (by rw [heldMinus]))
        · exact .inl isMinus
  | @operatorSign front held complete notMinus =>
      have noMark := complete.endsInMark_eq_false
      have isOpen := IsOpen.operatorSign held complete notMinus
      rw [isOpen.addOperator_eq (by simp) noSign, dropReplaced_operatorSign]
      split
      · rename_i isMinus
        rw [isMinus, List.append_assoc]
        exact operatorAdded_of_sign noMark notMinus (by simp) rfl
      · rename_i isOther
        exact operatorAdded_of_alone noMark (by simp) (.inl isOther)

end AmountPad.Entry
