import AmountPad.Proofs.Amount.RoundTrip
import AmountPad.Proofs.Pad.Outcome

/-!
# The value beside the text

The value of a pad is the value of its text whenever the text has one, except
after a confirmation.  Then the text is that of the value, which is read back as
a value with the same text.  So what a pad shows is never at odds with a text
that has a value, and a fault is only noted while it has none.
-/

namespace AmountPad.Pad

variable {pad : Pad}

/-- The value goes with the text: it is finite, and if the text has a value then
no fault is noted and both are written in the same way. -/
structure IsConsistent (pad : Pad) : Prop where
  isTyped : Entry.IsTyped pad.entry
  isFinite : pad.value.isFinite = true
  fault_eq_none : ∀ value, pad.outcome = .ok value → pad.fault = none
  plainText_eq : ∀ value, pad.outcome = .ok value →
    Amount.plainText pad.value = Amount.plainText value

/-- The value is that of the text, if the text has one. -/
def IsSettled (pad : Pad) : Prop :=
  ∀ value, pad.outcome = .ok value → pad.value = value

/-- A new pad has the value of its text. -/
theorem outcome_empty : outcome {} = .ok 0 := by
  decide +kernel

theorem isConsistent_empty : IsConsistent {} where
  isTyped := Entry.isTyped_zero
  isFinite := by decide +kernel
  fault_eq_none _ _ := rfl
  plainText_eq := by
    intro value outcomeEq
    rw [outcome_empty] at outcomeEq
    cases outcomeEq
    rfl

theorem isSettled_empty : IsSettled {} := by
  intro value outcomeEq
  rw [outcome_empty] at outcomeEq
  cases outcomeEq
  rfl

theorem refresh_of_outcome_eq_ok {value : Float} (outcomeEq : pad.outcome = .ok value) :
    pad.refresh = { pad with value, fault := none } := by
  rw [refresh, outcomeEq]

theorem refresh_of_outcome_eq_error {fault : Fault} (outcomeEq : pad.outcome = .error fault) :
    pad.refresh = pad := by
  rw [refresh, outcomeEq]

theorem confirm_of_outcome_eq_ok {value : Float} (outcomeEq : pad.outcome = .ok value) :
    pad.confirm = { entry := Amount.padText value, value } := by
  rw [confirm, outcomeEq]

theorem confirm_of_outcome_eq_error {fault : Fault} (outcomeEq : pad.outcome = .error fault) :
    pad.confirm = { pad with fault := some fault } := by
  rw [confirm, outcomeEq]

/-- A run that ends in a confirmation has its value, and the text of that value. -/
theorem run_confirm_of_outcome_eq_ok {steps : List Step} {value : Float}
    (outcomeEq : (pad.run steps).outcome = .ok value) :
    pad.run (steps ++ [Step.confirm]) = { entry := Amount.padText value, value } := by
  rw [run_append]
  exact confirm_of_outcome_eq_ok outcomeEq

/-- A run that ends in a confirmation without a value differs by the fault alone. -/
theorem run_confirm_of_outcome_eq_error {steps : List Step} {fault : Fault}
    (outcomeEq : (pad.run steps).outcome = .error fault) :
    pad.run (steps ++ [Step.confirm]) = { pad.run steps with fault := some fault } := by
  rw [run_append]
  exact confirm_of_outcome_eq_error outcomeEq

/-- Taking the value of the text does not change the value that the text has. -/
@[simp]
theorem outcome_refresh (pad : Pad) : pad.refresh.outcome = pad.outcome :=
  congrArg calculateFinished pad.entry_refresh

/-- Taking the value of the text settles a pad. -/
theorem isSettled_refresh (pad : Pad) : IsSettled pad.refresh := by
  intro value outcomeEq
  rw [outcome_refresh] at outcomeEq
  rw [refresh_of_outcome_eq_ok outcomeEq]

/-- Taking the value of a typed text keeps a finite value, or finds one. -/
theorem isConsistent_refresh (typed : Entry.IsTyped pad.entry)
    (finite : pad.value.isFinite = true) : IsConsistent pad.refresh where
  isTyped := by
    rw [entry_refresh]
    exact typed
  isFinite := by
    cases outcomeEq : pad.outcome with
    | ok value =>
        rw [refresh_of_outcome_eq_ok outcomeEq]
        exact typed.isFinite_of_calculateFinished outcomeEq
    | error fault =>
        rw [refresh_of_outcome_eq_error outcomeEq]
        exact finite
  fault_eq_none := by
    intro value outcomeEq
    rw [outcome_refresh] at outcomeEq
    rw [refresh_of_outcome_eq_ok outcomeEq]
  plainText_eq := by
    intro value outcomeEq
    rw [isSettled_refresh pad value outcomeEq]

/-- A confirmation puts a text in place whose value is written as the value of
the pad. -/
theorem IsConsistent.confirm (consistent : IsConsistent pad) : IsConsistent pad.confirm := by
  cases outcomeEq : pad.outcome with
  | ok value =>
      have confirmed := confirm_of_outcome_eq_ok outcomeEq
      have finite : value.isFinite = true :=
        consistent.isTyped.isFinite_of_calculateFinished outcomeEq
      have plainEq := (Amount.plain_padText value).1
      have finished := Amount.isUnfinished_eq_false_of_plain plainEq
      obtain ⟨again, calculated, readBack⟩ :=
        Amount.exists_calculate_plainText finite plainEq
      rw [confirmed]
      constructor
      · exact .complete (Amount.isComplete_padText value)
      · exact finite
      · exact fun _ _ => rfl
      · intro next nextEq
        rw [outcome, calculateFinished_of_not_isUnfinished finished, calculated] at nextEq
        cases nextEq
        exact (readBack.plainText_eq finite).symm
  | error fault =>
      have confirmed := confirm_of_outcome_eq_error outcomeEq
      have noValue : ∀ value, pad.confirm.outcome ≠ .ok value := by
        intro value equal
        rw [confirmed] at equal
        cases outcomeEq.symm.trans equal
      constructor
      · rw [confirmed]
        exact consistent.isTyped
      · rw [confirmed]
        exact consistent.isFinite
      · exact fun value equal => absurd equal (noValue value)
      · exact fun value equal => absurd equal (noValue value)

/-- Every step keeps the value with the text. -/
theorem IsConsistent.apply (consistent : IsConsistent pad) (step : Step) :
    IsConsistent (pad.apply step) := by
  cases step with
  | type c => exact isConsistent_refresh (consistent.isTyped.type c) consistent.isFinite
  | erase => exact isConsistent_refresh consistent.isTyped.erase consistent.isFinite
  | clear => exact isConsistent_empty
  | confirm => exact consistent.confirm

/-- Every run keeps the value with the text. -/
theorem IsConsistent.run (consistent : IsConsistent pad) (steps : List Step) :
    IsConsistent (pad.run steps) := by
  induction steps generalizing pad with
  | nil => exact consistent
  | cons step steps inductionHypothesis =>
      rw [run_cons]
      exact inductionHypothesis (consistent.apply step)

/-- Every step but a confirmation settles a pad. -/
theorem isSettled_apply (pad : Pad) {step : Step} (noConfirm : step ≠ .confirm) :
    IsSettled (pad.apply step) := by
  cases step with
  | type c => exact isSettled_refresh _
  | erase => exact isSettled_refresh _
  | clear => exact isSettled_empty
  | confirm => exact absurd rfl noConfirm

/-- A run that does not end in a confirmation settles a new pad. -/
theorem isSettled_run {steps : List Step} (noConfirm : steps.getLast? ≠ some .confirm) :
    IsSettled (run {} steps) := by
  induction steps using List.reverseRecOn with
  | nil => exact isSettled_empty
  | append_singleton steps step _ =>
      rw [List.getLast?_concat] at noConfirm
      rw [run_append]
      exact isSettled_apply _ fun isConfirm => noConfirm (congrArg some isConfirm)

/-- The value of a pad is finite.  If the text has a value, then no fault is
noted, the value of the pad is written as that of the text, and it is the same
value unless the last step was a confirmation. -/
theorem value_run (steps : List Step) :
    (run {} steps).value.isFinite = true ∧
      ∀ value, (run {} steps).outcome = .ok value →
        (run {} steps).fault = none ∧
          Amount.plainText (run {} steps).value = Amount.plainText value ∧
          (steps.getLast? ≠ some .confirm → (run {} steps).value = value) := by
  have consistent : IsConsistent (run {} steps) := isConsistent_empty.run steps
  constructor
  · exact consistent.isFinite
  · intro value outcomeEq
    constructor
    · exact consistent.fault_eq_none value outcomeEq
    constructor
    · exact consistent.plainText_eq value outcomeEq
    · intro noConfirm
      exact isSettled_run noConfirm value outcomeEq

/-- A third of two is kept to the last bit until it is confirmed.  The confirmed
text has another value, which is written in the same way. -/
theorem value_run_of_third :
    let typed : List Step := [.type '2', .type '/', .type '3']
    let confirmed := typed ++ [.confirm]
    ((run {} typed).outcome = .ok (2 / 3) ∧ (run {} typed).value = 2 / 3) ∧
      (run {} confirmed).outcome = .ok 0.6666666667 ∧
      (run {} confirmed).fault = none ∧
      Amount.plainText (run {} confirmed).value = Amount.plainText 0.6666666667 := by
  intro typed confirmed
  have typedEq : (run {} typed).outcome = .ok (2 / 3) := by decide +kernel
  have confirmedEq : (run {} confirmed).outcome = .ok 0.6666666667 := by decide +kernel
  have typedValue := (value_run typed).2 _ typedEq
  have confirmedValue := (value_run confirmed).2 _ confirmedEq
  constructor
  · exact ⟨typedEq, typedValue.2.2 (by decide)⟩
  · exact ⟨confirmedEq, confirmedValue.1, confirmedValue.2.1⟩

end AmountPad.Pad
