import AmountPad.Proofs.Calculation.Answer
import AmountPad.Proofs.Entry.Chain
import AmountPad.Proofs.Pad.Reachable

/-!
# The outcome of a finished text

A finished text of a pad is a chain of literals, so the reader and the evaluator
find it well formed.  Calculating it can only fail on its numbers: a literal or
a result is too large, or a divisor is zero.
-/

namespace AmountPad

/-- What a finished typed text can answer. -/
theorem Entry.IsTyped.calculateFinished_cases {text : Text} (typed : IsTyped text)
    (finished : isUnfinished text = false) :
    (∃ answer, IsAnswer answer ∧
        calculateFinished text = answer.mapError .evaluation) ∨
      ∃ literal, calculateFinished text = .error (.reading (.tooLarge literal)) := by
  rw [calculateFinished_of_not_isUnfinished finished]
  exact (typed.isComplete_of_finished finished).isChain.calculate_cases

/-- The value of a typed text is finite. -/
theorem Entry.IsTyped.isFinite_of_calculateFinished {text : Text} {value : Float}
    (typed : IsTyped text) (calculated : calculateFinished text = .ok value) :
    value.isFinite = true := by
  obtain ⟨finished, calculated⟩ := calculateFinished_eq_ok_iff.mp calculated
  exact (typed.isComplete_of_finished finished).isChain.isFinite_of_calculate_eq_ok calculated

namespace Pad

/-- A finished text of a pad has a finite value, or a literal or a result that
is too large, or a divisor that is zero.  The other faults of a text do not
occur. -/
theorem outcome_run_of_finished (steps : List Step)
    (finished : (run {} steps).isUnfinished = false) :
    (∃ value : Float, (run {} steps).outcome = .ok value ∧ value.isFinite = true) ∨
      (∃ literal, (run {} steps).outcome = .error (.reading (.tooLarge literal))) ∨
      (run {} steps).outcome = .error (.evaluation .divisionByZero) ∨
      (run {} steps).outcome = .error (.evaluation .notFinite) := by
  have typed : Entry.IsTyped (run {} steps).entry :=
    isTyped_entry_run Entry.isTyped_zero steps
  rcases typed.calculateFinished_cases finished with
    ⟨answer, isAnswer, equal⟩ | ⟨literal, equal⟩
  · cases isAnswer with
    | value isFinite => exact .inl ⟨_, equal, isFinite⟩
    | divisionByZero => exact .inr (.inr (.inl equal))
    | notFinite => exact .inr (.inr (.inr equal))
  · exact .inr (.inl ⟨literal, equal⟩)

/-- One divided by zero with a minus is a finished text, and its fault is the zero divisor. -/
theorem outcome_run_division_of_finished :
    let steps : List Step := [.type '1', .type '/', .type '-', .type '0']
    (run {} steps).isUnfinished = false ∧
      (run {} steps).outcome = .error (.evaluation .divisionByZero) := by
  intro steps
  have finished : (run {} steps).isUnfinished = false := by decide +kernel
  have messageEq : (run {} steps).outcome.mapError Fault.message =
      .error "division by zero".toList := by
    decide +kernel
  refine ⟨finished, ?_⟩
  -- The wording belongs to one of the four answers only.
  rcases outcome_run_of_finished steps finished with
    ⟨value, hasValue, _⟩ | ⟨literal, tooLarge⟩ | divisionByZero | notFinite
  · rw [hasValue] at messageEq
    cases messageEq
  · rw [tooLarge] at messageEq
    cases messageEq
  · exact divisionByZero
  · rw [notFinite] at messageEq
    cases messageEq

/-- Typing a text asks for its value. -/
theorem outcome_run_type {text : Text} (typed : Entry.IsTyped text) :
    (run {} (text.map .type)).outcome = calculateFinished text := by
  rw [outcome, entry_run_type]
  exact congrArg calculateFinished typed.foldl_type

/-- Any number of nines, but none, is a number. -/
theorem isNumeral_replicate_nine (count : Nat) :
    Entry.IsNumeral (List.replicate (count + 1) '9') (List.replicate (count + 1) '9') := by
  apply Entry.IsNumeral.integer
  · simp
  · intro c member
    rw [List.eq_of_mem_replicate member]
    rfl

/-- Each of the three faults occurs. -/
theorem exists_outcome_run_eq_error :
    (∃ steps literal,
        (run {} steps).outcome = .error (.reading (.tooLarge literal))) ∧
      (∃ steps, (run {} steps).outcome = .error (.evaluation .divisionByZero)) ∧
      ∃ steps, (run {} steps).outcome = .error (.evaluation .notFinite) := by
  have complete : ∀ count, Entry.IsComplete (List.replicate (count + 1) '9') := fun count =>
    .unsigned (isNumeral_replicate_nine count) (.inr (by simp [List.replicate_succ]))
  constructor
  · have outcomeEq := outcome_run_type (.complete (complete 308))
    exact ⟨_, List.replicate 309 '9', outcomeEq.trans (by decide +kernel)⟩
  constructor
  · exact ⟨[.type '1', .type '/', .type '0'], by decide +kernel⟩
  · have square : Entry.IsComplete
        (List.replicate 200 '9' ++ Operator.times.glyph :: List.replicate 200 '9') :=
      .extend .times (complete 199) (fun _ => nofun) (isNumeral_replicate_nine 199)
    have outcomeEq := outcome_run_type (.complete square)
    exact ⟨_, outcomeEq.trans (by decide +kernel)⟩

end Pad

end AmountPad
