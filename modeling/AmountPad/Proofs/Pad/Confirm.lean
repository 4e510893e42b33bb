import AmountPad.Proofs.Amount.Exactness
import AmountPad.Proofs.Pad.Value

/-!
# Confirming twice

The text of a finite value has a value again, in both spellings and whether it is
asked for while it is being typed or not.  The new value is less than a place
away from the old one and is written in the same way, so a second confirmation
leaves the text of the first one as it is.
-/

namespace AmountPad

/-- Texts with the same plain spelling have the same outcome. -/
theorem calculate_congr {first second : Text} (same : plain first = plain second) :
    calculate first = calculate second := by
  simp only [calculate, Token.ofText, same]

/-- Both texts of a finite value are finished and have the value that is read back. -/
theorem Amount.exists_isReadBack {x : Float} (finite : x.isFinite = true) :
    ∃ y : Float, IsReadBack x y ∧
      ∀ text ∈ [plainText x, padText x],
        calculate text = .ok y ∧ calculateFinished text = .ok y := by
  obtain ⟨plainPad, plainPlain⟩ := plain_padText x
  obtain ⟨y, calculated, readBack⟩ := exists_calculate_plainText finite plainPlain
  refine ⟨y, readBack, ?_⟩
  intro text isText
  have plainEq : plain text = plainText x := by
    simp only [List.mem_cons, List.not_mem_nil, or_false] at isText
    rcases isText with rfl | rfl
    · exact plainPlain
    · exact plainPad
  have textCalculated : calculate text = .ok y := by
    rw [calculate_congr (plainEq.trans plainPlain.symm), calculated]
  rw [calculateFinished_of_not_isUnfinished (isUnfinished_eq_false_of_plain plainEq)]
  exact ⟨textCalculated, textCalculated⟩

namespace Pad

/-- A pad with the text of a finite value has the value that is read back. -/
theorem exists_outcome_of_entry_eq {value : Float} (finite : value.isFinite = true) :
    ∃ again, Amount.IsReadBack value again ∧
      ∀ pad : Pad, pad.entry = Amount.padText value → pad.outcome = .ok again := by
  obtain ⟨again, readBack, texts⟩ := Amount.exists_isReadBack finite
  refine ⟨again, readBack, ?_⟩
  intro pad entryEq
  rw [outcome, entryEq]
  exact (texts (Amount.padText value) (by simp)).2

/-- A confirmed pad can be confirmed again, and keeps its text. -/
theorem exists_outcome_confirm {pad : Pad} {value : Float} (finite : value.isFinite = true)
    (outcomeEq : pad.outcome = .ok value) :
    ∃ again, pad.confirm.outcome = .ok again ∧
      pad.confirm.confirm.entry = pad.confirm.entry := by
  obtain ⟨again, readBack, outcomes⟩ := exists_outcome_of_entry_eq finite
  have confirmed := confirm_of_outcome_eq_ok outcomeEq
  have outcomeAgain : pad.confirm.outcome = .ok again := outcomes _ (congrArg entry confirmed)
  have textEq := readBack.plainText_eq finite
  refine ⟨again, outcomeAgain, ?_⟩
  rw [confirm_of_outcome_eq_ok outcomeAgain, confirmed]
  exact congrArg (List.map Amount.glyphMinus) textEq

/-- Both texts of a finite value are read back as one finite value less than
`10 ^ -10` away.  It is the value itself if that is at least `2 ^ 19` or has no
more than ten places, and its plain form is that of the value.  So a pad that has
been confirmed can be confirmed again, and its text stays as it is. -/
theorem readBack_and_confirm_stable :
    (∀ x : Float, x.isFinite = true →
      ∃ y : Float,
        (∀ text ∈ [Amount.plainText x, Amount.padText x],
          calculate text = .ok y ∧ calculateFinished text = .ok y) ∧
        y.isFinite = true ∧
        |Binary64.toRat y - Binary64.toRat x| < 1 / 10 ^ 10 ∧
        (2 ^ 19 ≤ |Binary64.toRat x| ∨ (∃ number : Int, Binary64.toRat x = number / 10 ^ 10) →
          Binary64.toRat y = Binary64.toRat x) ∧
        Amount.plainText y = Amount.plainText x) ∧
      ∀ (steps : List Step) (value : Float), (run {} steps).outcome = .ok value →
        ∃ again, (run {} (steps ++ [Step.confirm])).outcome = .ok again ∧
          (run {} (steps ++ [Step.confirm, Step.confirm])).entry =
            (run {} (steps ++ [Step.confirm])).entry := by
  constructor
  · intro x finite
    obtain ⟨y, readBack, texts⟩ := Amount.exists_isReadBack finite
    refine ⟨y, texts, readBack.isFinite, readBack.abs_toRat_sub_lt, ?_,
      readBack.plainText_eq finite⟩
    rintro (large | ⟨number, whole⟩)
    · exact readBack.toRat_eq_of_large large
    · exact readBack.toRat_eq_of_whole whole
  · intro steps value outcomeEq
    have typed : Entry.IsTyped (run {} steps).entry :=
      isTyped_entry_run Entry.isTyped_zero steps
    have finite := typed.isFinite_of_calculateFinished outcomeEq
    rw [run_append, run_append]
    exact exists_outcome_confirm finite outcomeEq

/-- A value above `2 ^ 19` and an eighth are read back to the last bit.  A third is
read back less than a place away, and can be confirmed twice. -/
theorem readBack_and_confirm_stable_of_third :
    let third : Float := 1 / 3
    let steps : List Step := [.type '1', .type '/', .type '3']
    (∀ x ∈ [(1048576.3 : Float), 0.125],
        x.isFinite = true ∧
          (2 ^ 19 ≤ |Binary64.toRat x| ∨
            ∃ number : Int, Binary64.toRat x = number / 10 ^ 10) ∧
          ∃ y, calculate (Amount.plainText x) = .ok y ∧
            Binary64.toRat y = Binary64.toRat x) ∧
      third.isFinite = true ∧
      (∃ y, calculateFinished (Amount.padText third) = .ok y ∧
        |Binary64.toRat y - Binary64.toRat third| < 1 / 10 ^ 10) ∧
      (run {} steps).outcome = .ok third ∧
      ∃ again, (run {} (steps ++ [Step.confirm])).outcome = .ok again ∧
        (run {} (steps ++ [Step.confirm, Step.confirm])).entry =
          (run {} (steps ++ [Step.confirm])).entry := by
  intro third steps
  have thirdFinite : third.isFinite = true := by decide +kernel
  have outcomeEq : (run {} steps).outcome = .ok third := by decide +kernel
  constructor
  · intro x isExact
    simp only [List.mem_cons, List.not_mem_nil, or_false] at isExact
    have finite : x.isFinite = true := by
      rcases isExact with rfl | rfl <;> decide +kernel
    have exactText : 2 ^ 19 ≤ |Binary64.toRat x| ∨
        ∃ number : Int, Binary64.toRat x = number / 10 ^ 10 := by
      rcases isExact with rfl | rfl
      · exact .inl (by decide +kernel)
      · exact .inr ⟨1250000000, by decide +kernel⟩
    obtain ⟨y, texts, _, _, same, _⟩ := readBack_and_confirm_stable.1 x finite
    exact ⟨finite, exactText, y, (texts _ (by simp)).1, same exactText⟩
  constructor
  · exact thirdFinite
  constructor
  · obtain ⟨y, texts, _, near, _⟩ := readBack_and_confirm_stable.1 third thirdFinite
    exact ⟨y, (texts _ (by simp)).2, near⟩
  · exact ⟨outcomeEq, readBack_and_confirm_stable.2 steps third outcomeEq⟩

end Pad

end AmountPad
