import AmountPad.Proofs.Entry.Keys

/-!
# Keys that follow one another

An operator key takes the place of the operators that another one has left, and a point
key is ignored by a segment with a point.  So a key that is pressed again does nothing,
and an operator other than a minus makes up for any operator before it.

This is true of any text, in either spelling and with any run of operators at its end.
Only a minus that has taken the place of a zero cannot be made up for.
-/

namespace AmountPad.Entry

variable {text : Text} {first second operator : Operator}

/-! ## What is replaced -/

/-- An operator takes its own place. -/
theorem dropReplaced_concat_glyph (front : Text) (operator : Operator) :
    dropReplaced (front ++ [operator.glyph]) operator = front := by
  simp only [dropReplaced, List.getLast?_concat, isMark_glyph, Bool.not_true,
    Bool.false_eq_true, if_false, List.dropLast_concat]
  by_cases isSign : operator = .minus
  · simp [isSign, isMinus_glyph_iff]
  · simp [isSign, isMinus_glyph_iff]

/-- All operators but the minus take the same place. -/
theorem dropReplaced_congr (text : Text) (isFirst : first ≠ .minus) (isSecond : second ≠ .minus) :
    dropReplaced text first = dropReplaced text second := by
  simp only [dropReplaced, if_neg isFirst, if_neg isSecond]

/-- An operator takes the place of a sign and of all that the sign has left. -/
theorem dropReplaced_sign (text : Text) (notMinus : operator ≠ .minus) :
    dropReplaced (dropReplaced text .minus ++ [Operator.minus.glyph]) operator =
      dropReplaced text operator := by
  have isSign : isMinus Operator.minus.glyph = true := rfl
  rcases List.eq_nil_or_concat text with rfl | ⟨front, last, rfl⟩
  · simp [dropReplaced, notMinus, endsInMark]
  rw [List.concat_eq_append]
  simp only [dropReplaced, List.getLast?_concat, List.dropLast_concat, isMark_glyph, isSign,
    Bool.not_true, Bool.false_eq_true, if_false, if_true, if_neg notMinus, Bool.true_and]
  cases mark : isMark last with
  | false => simp [mark]
  | true => cases minus : isMinus last <;> simp [mark]

/-- An operator takes the place of any operator that has been typed before it. -/
theorem dropReplaced_dropReplaced (text : Text) (first : Operator)
    (notMinus : second ≠ .minus) :
    dropReplaced (dropReplaced text first ++ [first.glyph]) second =
      dropReplaced text second := by
  by_cases isSign : first = .minus
  · rw [isSign]
    exact dropReplaced_sign text notMinus
  · rw [dropReplaced_congr _ notMinus isSign, dropReplaced_concat_glyph]
    exact dropReplaced_congr text isSign notMinus

/-! ## Operator keys -/

/-- Only a sign on its own is left as a sign on its own. -/
theorem isLoneMinus_dropReplaced (nonempty : text ≠ []) (noSign : isLoneMinus text = false)
    (operator : Operator) :
    isLoneMinus (dropReplaced text operator ++ [operator.glyph]) = false := by
  rw [← Bool.not_eq_true, isLoneMinus_iff]
  rintro ⟨c, isSingle, minus⟩
  obtain ⟨isEmpty, rfl⟩ := List.append_singleton_inj.mp (isSingle.trans (List.nil_append [c]).symm)
  rw [isMinus_glyph_iff.mp minus] at isEmpty
  obtain ⟨front, last, rfl⟩ := (List.eq_nil_or_concat text).resolve_left nonempty
  rw [List.concat_eq_append] at noSign isEmpty
  simp only [dropReplaced, List.getLast?_concat, List.dropLast_concat, if_true] at isEmpty
  split at isEmpty
  · simp at isEmpty
  · split at isEmpty
    · rename_i isSign
      rw [isEmpty, List.nil_append, isLoneMinus, isSign] at noSign
      cases noSign
    · simp at isEmpty

/-- A text that an operator has been typed behind is not a lone zero. -/
theorem canFollow_concat_glyph (front : Text) (first second : Operator) :
    CanFollow (front ++ [first.glyph]) second :=
  fun isZero => absurd isZero (ne_zero_of_endsInMark (by simp))

/-- An operator key that is pressed again does nothing. -/
theorem addOperator_addOperator_self (nonempty : text ≠ []) (operator : Operator) :
    addOperator (addOperator text operator) operator = addOperator text operator := by
  cases sign : isLoneMinus text with
  | true => rw [addOperator_of_isLoneMinus sign, addOperator_of_isLoneMinus sign]
  | false =>
      by_cases canFollow : CanFollow text operator
      · rw [addOperator_of_canFollow sign canFollow,
          addOperator_of_canFollow (isLoneMinus_dropReplaced nonempty sign operator)
            (canFollow_concat_glyph _ _ _),
          dropReplaced_concat_glyph]
      · simp only [CanFollow, not_forall, not_not] at canFollow
        rcases canFollow with ⟨rfl, rfl⟩
        rfl

/-- An operator other than a minus makes up for an operator before it. -/
theorem addOperator_addOperator (nonempty : text ≠ []) (canFollow : CanFollow text first)
    (notMinus : second ≠ .minus) :
    addOperator (addOperator text first) second = addOperator text second := by
  cases sign : isLoneMinus text with
  | true => rw [addOperator_of_isLoneMinus sign]
  | false =>
      rw [addOperator_of_canFollow sign canFollow,
        addOperator_of_canFollow (isLoneMinus_dropReplaced nonempty sign first)
          (canFollow_concat_glyph _ _ _),
        dropReplaced_dropReplaced text first notMinus,
        addOperator_of_canFollow sign fun _ => notMinus]

theorem addOperator_ne_nil (nonempty : text ≠ []) (operator : Operator) :
    addOperator text operator ≠ [] := by
  unfold addOperator
  split
  · simp
  · split
    · exact nonempty
    · simp

/-! ## The point key -/

/-- The point key leaves a segment with a point. -/
theorem point_mem_lastSegment_addPoint (text : Text) : '.' ∈ lastSegment (addPoint text) := by
  unfold addPoint
  split
  · decide
  · split
    · decide
    · split
      · rw [lastSegment_append (by simp [isLiteralChar])]
        simp
      · split
        · rename_i hasPoint
          simpa using hasPoint
        · rw [lastSegment_append (by simp [isLiteralChar])]
          simp

theorem addPoint_ne_nil (text : Text) : addPoint text ≠ [] := by
  intro isEmpty
  have point := point_mem_lastSegment_addPoint text
  rw [isEmpty] at point
  cases point

/-! ## Keys -/

theorem orZero_eq_zero_iff (text : Text) : orZero text = zero ↔ text = zero ∨ text = [] := by
  unfold orZero
  split
  · rename_i isEmpty
    simp [isEmpty]
  · rename_i nonempty
    simp [nonempty]

/-- A key that is pressed again does nothing, and an operator other than a minus makes
up for the operator pressed before it, unless that was a minus in the place of a zero. -/
theorem press_press_eq (text : Text) :
    (∀ operator, press (press text (.operator operator)) (.operator operator) =
        press text (.operator operator)) ∧
      (∀ first second, second ≠ .minus →
        (press (press text (.operator first)) (.operator second) =
            press text (.operator second) ↔
          ¬ (first = .minus ∧ (text = zero ∨ text = [])))) ∧
      press (press text .point) .point = press text .point := by
  have nonempty := orZero_ne_nil text
  have pressed (first second : Operator) :
      press (press text (.operator first)) (.operator second) =
        addOperator (addOperator (orZero text) first) second :=
    congrArg (addOperator · second) (orZero_of_ne_nil (addOperator_ne_nil nonempty first))
  refine ⟨fun operator => ?_, fun first second notMinus => ?_, ?_⟩
  · rw [pressed]
    exact addOperator_addOperator_self nonempty operator
  · rw [pressed, ← orZero_eq_zero_iff]
    constructor
    · rintro same ⟨rfl, isZero⟩
      rw [press, isZero] at same
      -- the sign stands in the place of the zero, and nothing takes its place
      cases second with
      | minus => exact notMinus rfl
      | plus | times | divide => cases same
    · intro noSign
      apply addOperator_addOperator nonempty _ notMinus
      exact fun isZero isMinus => noSign ⟨isMinus, isZero⟩
  · rw [press, press, orZero_of_ne_nil (addPoint_ne_nil _)]
    exact addPoint_of_mem (point_mem_lastSegment_addPoint _)

/-- A run of operators in both spellings that is not built by keys, and the lone zero. -/
theorem press_press_eq_of_operator_run :
    Operator.times ≠ .minus ∧
      press (press "2+-÷−".toList (.operator .minus)) (.operator .times) =
        press "2+-÷−".toList (.operator .times) ∧
      press (press zero (.operator .minus)) (.operator .times) ≠
        press zero (.operator .times) := by
  have notMinus : Operator.times ≠ .minus := by decide
  refine ⟨notMinus, ?_, ?_⟩
  · exact ((press_press_eq _).2.1 .minus .times notMinus).mpr (by decide)
  · intro same
    exact ((press_press_eq _).2.1 .minus .times notMinus).mp same ⟨rfl, .inl rfl⟩

end AmountPad.Entry
