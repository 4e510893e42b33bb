import AmountPad.Proofs.Pad.Confirm

/-!
# Where the value comes from

A step that ends in a text without a value keeps the value of the pad.  So the
value is always that of the last text in the history that had one.

Taking the value of the text again changes nothing, except behind a confirmation:
that keeps the value to the last bit beside a text of ten places, and the value
of the text is less than a place away.  A character that leaves the text alone
does just that.
-/

namespace AmountPad.Pad

variable {pad : Pad}

/-! ## The last text with a value -/

theorem value_refresh_of_outcome_eq_error {fault : Fault}
    (outcomeEq : pad.refresh.outcome = .error fault) : pad.refresh.value = pad.value := by
  rw [outcome_refresh] at outcomeEq
  rw [refresh_of_outcome_eq_error outcomeEq]

/-- A step to a text without a value keeps the value. -/
theorem IsConsistent.value_apply_of_outcome_eq_error (consistent : IsConsistent pad)
    {step : Step} {fault : Fault} (outcomeEq : (pad.apply step).outcome = .error fault) :
    (pad.apply step).value = pad.value := by
  cases step with
  | type c => exact value_refresh_of_outcome_eq_error outcomeEq
  | erase => exact value_refresh_of_outcome_eq_error outcomeEq
  | clear =>
      rw [Pad.apply, outcome_empty] at outcomeEq
      cases outcomeEq
  | confirm =>
      rw [Pad.apply] at outcomeEq ⊢
      cases confirmed : pad.outcome with
      | ok value =>
          have finite := consistent.isTyped.isFinite_of_calculateFinished confirmed
          obtain ⟨again, outcomeAgain, _⟩ := exists_outcome_confirm finite confirmed
          rw [outcomeAgain] at outcomeEq
          cases outcomeEq
      | error fault => rw [confirm_of_outcome_eq_error confirmed]

/-- The value of a pad is written as that of the last text in its history that
had one. -/
theorem exists_last_outcome (steps : List Step) :
    ∃ earlier later value, steps = earlier ++ later ∧
      (run {} earlier).outcome = .ok value ∧
      (∀ middle, middle <+: later → middle ≠ [] →
        ∃ fault, (run {} (earlier ++ middle)).outcome = .error fault) ∧
      Amount.plainText (run {} steps).value = Amount.plainText value := by
  induction steps using List.reverseRecOn with
  | nil => exact ⟨[], [], 0, rfl, outcome_empty, by simp, rfl⟩
  | append_singleton steps step inductionHypothesis =>
      cases outcomeEq : (run {} (steps ++ [step])).outcome with
      | ok value =>
          have consistent := isConsistent_empty.run (steps ++ [step])
          exact ⟨_, [], value, (List.append_nil _).symm, outcomeEq, by simp,
            consistent.plainText_eq value outcomeEq⟩
      | error fault =>
          obtain ⟨earlier, later, value, rfl, hasValue, noValue, textEq⟩ := inductionHypothesis
          refine ⟨earlier, later ++ [step], value, List.append_assoc .., hasValue, ?_, ?_⟩
          · intro middle isPrefix someStep
            rcases List.prefix_concat_iff.mp isPrefix with rfl | isPrefix
            · rw [← List.append_assoc]
              exact ⟨fault, outcomeEq⟩
            · exact noValue middle isPrefix someStep
          · have consistent := isConsistent_empty.run (earlier ++ later)
            rw [run_append] at outcomeEq ⊢
            rw [← textEq]
            exact congrArg _ (consistent.value_apply_of_outcome_eq_error outcomeEq)

/-! ## Characters that leave the text alone -/

/-- A settled pad has nothing to take from its text. -/
theorem IsConsistent.refresh_eq_self (consistent : IsConsistent pad) (settled : IsSettled pad) :
    pad.refresh = pad := by
  cases outcomeEq : pad.outcome with
  | error fault => exact refresh_of_outcome_eq_error outcomeEq
  | ok value =>
      rw [refresh_of_outcome_eq_ok outcomeEq, ← settled value outcomeEq,
        ← consistent.fault_eq_none value outcomeEq]

theorem IsConsistent.fault_refresh (consistent : IsConsistent pad) :
    pad.refresh.fault = pad.fault := by
  cases outcomeEq : pad.outcome with
  | error fault => rw [refresh_of_outcome_eq_error outcomeEq]
  | ok value =>
      rw [refresh_of_outcome_eq_ok outcomeEq, consistent.fault_eq_none value outcomeEq]

/-- The last step has confirmed `value`, and the text that it wrote has the other
value `again`. -/
structure KeepsConfirmed (steps : List Step) (value again : Float) : Prop where
  confirmed : ∃ earlier, steps = earlier ++ [Step.confirm] ∧
    (run {} earlier).outcome = .ok value
  outcome_eq : (run {} steps).outcome = .ok again
  ne : again ≠ value

section KeepsConfirmed

variable {steps : List Step} {value again : Float}

theorem KeepsConfirmed.run_eq (keeps : KeepsConfirmed steps value again) :
    run {} steps = { entry := Amount.padText value, value } := by
  obtain ⟨earlier, rfl, outcomeEq⟩ := keeps.confirmed
  exact run_confirm_of_outcome_eq_ok outcomeEq

theorem KeepsConfirmed.isFinite (keeps : KeepsConfirmed steps value again) :
    value.isFinite = true := by
  have consistent : IsConsistent (run {} steps) := isConsistent_empty.run steps
  have finite := consistent.isFinite
  rwa [keeps.run_eq] at finite

/-- The other value is the one that is read back from the text. -/
theorem KeepsConfirmed.isReadBack (keeps : KeepsConfirmed steps value again) :
    Amount.IsReadBack value again := by
  obtain ⟨found, readBack, outcomes⟩ := exists_outcome_of_entry_eq keeps.isFinite
  have outcomeFound : (run {} steps).outcome = .ok found :=
    outcomes _ (congrArg entry keeps.run_eq)
  cases outcomeFound.symm.trans keeps.outcome_eq
  exact readBack

/-- A pad that does not keep another value is settled. -/
theorem isSettled_run_of_not_keepsConfirmed
    (noneKept : ¬ ∃ value again, KeepsConfirmed steps value again) :
    IsSettled (run {} steps) := by
  by_cases isConfirm : steps.getLast? = some .confirm
  · obtain ⟨earlier, rfl⟩ := List.getLast?_eq_some_iff.mp isConfirm
    intro again outcomeAgain
    cases outcomeEq : (run {} earlier).outcome with
    | error fault =>
        rw [run_confirm_of_outcome_eq_error outcomeEq] at outcomeAgain
        cases outcomeEq.symm.trans outcomeAgain
    | ok value =>
        rw [run_confirm_of_outcome_eq_ok outcomeEq]
        by_contra differs
        exact noneKept
          ⟨value, again, ⟨earlier, rfl, outcomeEq⟩, outcomeAgain, Ne.symm differs⟩
  · exact isSettled_run isConfirm

end KeepsConfirmed

/-- A character that leaves the text alone takes the value of the text. -/
theorem type_of_entry_eq {c : Char} (absorbed : Entry.type pad.entry c = pad.entry) :
    pad.type c = pad.refresh := by
  rw [type, absorbed]

/-- A character that leaves the text of a pad alone leaves its fault alone, and
takes the value of the text if it has one.  That leaves the value and the amount
alone too, unless the last step was a confirmation and its text has another value
than the one that is kept.  Then the value becomes that of the text, which is less
than `10 ^ -10` away and written in the same way. -/
theorem type_run_of_absorbed (steps : List Step) (c : Char)
    (absorbed : Entry.type (run {} steps).entry c = (run {} steps).entry) :
    let pad := run {} steps
    ((pad.type c).entry = pad.entry ∧ (pad.type c).fault = pad.fault) ∧
      (∀ again, pad.outcome = .ok again →
        (pad.type c).value = again ∧ (pad.type c).amountText = Amount.centsText again) ∧
      ((¬ ∃ value again, KeepsConfirmed steps value again) →
        (pad.type c).value = pad.value ∧ (pad.type c).amountText = pad.amountText) ∧
      ∀ value again, KeepsConfirmed steps value again →
        pad.entry = Amount.padText value ∧ pad.value = value ∧
          (pad.type c).value = again ∧ (pad.type c).amountText = Amount.centsText again ∧
          |Binary64.toRat again - Binary64.toRat value| < 1 / 10 ^ 10 ∧
          Amount.plainText again = Amount.plainText value := by
  intro pad
  have consistent : IsConsistent pad := isConsistent_empty.run steps
  have refreshes : pad.type c = pad.refresh := type_of_entry_eq absorbed
  have takes : ∀ again, pad.outcome = .ok again →
      (pad.type c).value = again ∧ (pad.type c).amountText = Amount.centsText again := by
    intro again outcomeEq
    rw [refreshes, refresh_of_outcome_eq_ok outcomeEq]
    exact ⟨rfl, rfl⟩
  refine ⟨⟨?_, ?_⟩, takes, ?_, ?_⟩
  · rw [refreshes, entry_refresh]
  · rw [refreshes, consistent.fault_refresh]
  · intro noneKept
    have settled : IsSettled pad := isSettled_run_of_not_keepsConfirmed noneKept
    rw [refreshes, consistent.refresh_eq_self settled]
    exact ⟨rfl, rfl⟩
  · intro value again keeps
    have padEq : pad = { entry := Amount.padText value, value } := keeps.run_eq
    have readBack : Amount.IsReadBack value again := keeps.isReadBack
    obtain ⟨valueEq, amountEq⟩ := takes again keeps.outcome_eq
    exact ⟨congrArg entry padEq, congrArg Pad.value padEq, valueEq, amountEq,
      readBack.abs_toRat_sub_lt, readBack.plainText_eq keeps.isFinite⟩

/-- A second point changes nothing behind a third that has been typed.  Behind a
confirmed third it takes the value of ten places. -/
theorem type_run_of_absorbed_third :
    let typed : List Step := [.type '1', .type '/', .type '3', .type '.', .type '5']
    let confirmed : List Step := [.type '1', .type '/', .type '3', .confirm]
    (Entry.type (run {} typed).entry '.' = (run {} typed).entry ∧
        ((run {} typed).type '.').value = (run {} typed).value) ∧
      Entry.type (run {} confirmed).entry '.' = (run {} confirmed).entry ∧
      KeepsConfirmed confirmed (1 / 3) 0.3333333333 ∧
      ((run {} confirmed).type '.').fault = (run {} confirmed).fault ∧
      ((run {} confirmed).type '.').value = 0.3333333333 ∧
      Amount.plainText 0.3333333333 = Amount.plainText (1 / 3) := by
  intro typed confirmed
  have typedAbsorbed : Entry.type (run {} typed).entry '.' = (run {} typed).entry := by
    decide +kernel
  have confirmedAbsorbed :
      Entry.type (run {} confirmed).entry '.' = (run {} confirmed).entry := by
    decide +kernel
  have noneKept : ¬ ∃ value again, KeepsConfirmed typed value again := by
    rintro ⟨value, again, keeps⟩
    obtain ⟨earlier, endsInConfirm, _⟩ := keeps.confirmed
    have last := congrArg List.getLast? endsInConfirm
    rw [List.getLast?_concat] at last
    cases last
  have keeps : KeepsConfirmed confirmed (1 / 3) 0.3333333333 :=
    ⟨⟨[.type '1', .type '/', .type '3'], rfl, by decide +kernel⟩, by decide +kernel,
      by decide +kernel⟩
  obtain ⟨_, _, unchanged, _⟩ := type_run_of_absorbed typed '.' typedAbsorbed
  obtain ⟨⟨_, sameFault⟩, _, _, changes⟩ :=
    type_run_of_absorbed confirmed '.' confirmedAbsorbed
  obtain ⟨_, _, becomes, _, _, sameText⟩ := changes _ _ keeps
  exact ⟨⟨typedAbsorbed, (unchanged noneKept).1⟩, confirmedAbsorbed, keeps, sameFault, becomes,
    sameText⟩

/-- An ignored character can change the value and the amount that is shown. -/
theorem amountText_changes_of_absorbed :
    let steps := "0.1250000000001".toList.map Step.type ++ [Step.confirm]
    let pad := run {} steps
    Entry.type pad.entry 'x' = pad.entry ∧
      (pad.type 'x').value ≠ pad.value ∧
      pad.amountText = "0.13".toList ∧ (pad.type 'x').amountText = "0.12".toList := by
  decide +kernel

end AmountPad.Pad
