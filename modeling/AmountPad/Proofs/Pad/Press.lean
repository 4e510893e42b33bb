import AmountPad.Proofs.Entry.Ending
import AmountPad.Proofs.Pad.Reachable

/-!
# Keys of a pad

Whatever a pad has been through, a key changes the end of its text and nothing else: a
digit or a point changes what the last number is worth as it should, and an operator takes
its place among the operators behind the last number.
-/

namespace AmountPad.Pad

open Entry

/-- What each key does to the text of a pad. -/
theorem press_entry_run (steps : List Step) :
    let text := (run {} steps).entry
    text = beforeSegment text ++ lastSegment text ∧
      (∀ digit : Fin 10, DigitAdded digit text (press text (.digit (Nat.digitChar digit)))) ∧
      PointAdded text (press text .point) ∧
      ∀ operator : Operator,
        (text = [Operator.minus.glyph] → press text (.operator operator) = text) ∧
        (text = zero ∧ operator = .minus →
          press text (.operator operator) = [Operator.minus.glyph]) ∧
        (text ≠ [Operator.minus.glyph] → ¬ (text = zero ∧ operator = .minus) →
          OperatorAdded operator text (press text (.operator operator))) := by
  intro text
  have typed : IsTyped text := isTyped_entry_run isTyped_zero steps
  obtain ⟨before, number, endsIn⟩ := typed.exists_endsIn
  simp only [press, orZero_of_ne_nil typed.ne_nil]
  refine ⟨endsIn.text_eq_append, fun digit => typed.digitAdded digit.isLt, typed.pointAdded,
    fun operator => ⟨?_, ?_, ?_⟩⟩
  · intro isSign
    exact addOperator_of_isLoneMinus (isLoneMinus_iff.mpr ⟨_, isSign, rfl⟩) operator
  · rintro ⟨isZero, isMinus⟩
    rw [isZero, isMinus]
    rfl
  · intro noSign notReplaced
    exact typed.operatorAdded noSign fun isZero isMinus => notReplaced ⟨isZero, isMinus⟩

/-- A fraction that goes on, a sign that gives way with the operator before it, and a sign
that does not. -/
theorem press_entry_run_of_product :
    DigitAdded 5 "7×−0.2".toList "7×−0.25".toList ∧
      PointAdded "7×−".toList "7×−0.".toList ∧
      (OperatorAdded .plus "7×−".toList "7+".toList ∧
        OperatorAdded .minus "7×".toList "7×−".toList) ∧
      press "−".toList (.operator .plus) = "−".toList ∧
        press zero (.operator .minus) = "−".toList := by
  have reached (keys : Text) (typed : keys.foldl Entry.type zero = keys) :
      (run {} (keys.map .type)).entry = keys :=
    (entry_run_type {} keys).trans typed
  have fraction := press_entry_run ("7×−0.2".toList.map .type)
  have signed := press_entry_run ("7×−".toList.map .type)
  have product := press_entry_run ("7×".toList.map .type)
  have sign := press_entry_run ("−".toList.map .type)
  have lone := press_entry_run []
  rw [reached _ (by decide)] at fraction signed product sign
  exact ⟨fraction.2.1 5, signed.2.2.1,
    ⟨(signed.2.2.2 .plus).2.2 (by decide) (by decide),
      (product.2.2.2 .minus).2.2 (by decide) (by decide)⟩,
    (sign.2.2.2 .plus).1 rfl, (lone.2.2.2 .minus).2.1 ⟨rfl, rfl⟩⟩

end AmountPad.Pad
