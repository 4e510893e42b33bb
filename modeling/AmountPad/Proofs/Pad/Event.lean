import AmountPad.Pad.Event
import AmountPad.Proofs.Pad.Value

/-!
# The value and the fault are those of the last events

A step that gives a value stores it and takes the fault away.  Any other step keeps
the value, and keeps the fault too unless it is a confirmation, which notes why its
text has no value.  So the value of a pad is what was given last, and the fault is
that of the last confirmation if nothing has been given since.
-/

namespace AmountPad

/-! ## One step -/

section Steps

variable {pad : Pad} {step : Step}

/-- Taking the value of a text that has one stores it. -/
theorem Pad.refresh_stores {value : Float} (outcomeEq : pad.outcome = .ok value) :
    pad.refresh.value = value ∧ pad.refresh.fault = none := by
  rw [Pad.refresh_of_outcome_eq_ok outcomeEq]
  exact ⟨rfl, rfl⟩

/-- A step that gives a value stores it and takes the fault away. -/
theorem Step.Gives.apply {value : Float} (gives : step.Gives pad.entry value) :
    (pad.apply step).value = value ∧ (pad.apply step).fault = none := by
  cases gives with
  | @type _ c _ outcomeEq =>
      have typed : ({ pad with entry := Entry.type pad.entry c } : Pad).outcome = .ok value :=
        outcomeEq
      exact Pad.refresh_stores typed
  | erase outcomeEq =>
      have erased : ({ pad with entry := Entry.erase pad.entry } : Pad).outcome = .ok value :=
        outcomeEq
      exact Pad.refresh_stores erased
  | clear => exact ⟨rfl, rfl⟩
  | confirm outcomeEq =>
      rw [Pad.apply, Pad.confirm_of_outcome_eq_ok outcomeEq]
      exact ⟨rfl, rfl⟩

namespace Pad

/-- What has no value has a fault. -/
theorem exists_outcome_eq_error (noValue : ∀ value, pad.outcome ≠ .ok value) :
    ∃ fault, pad.outcome = .error fault := by
  cases outcomeEq : pad.outcome with
  | ok value => exact absurd outcomeEq (noValue value)
  | error fault => exact ⟨fault, rfl⟩

/-- Taking the value of a text that has none changes nothing. -/
theorem refresh_keeps (noValue : ∀ value, pad.outcome ≠ .ok value) : pad.refresh = pad := by
  obtain ⟨fault, outcomeEq⟩ := exists_outcome_eq_error noValue
  exact refresh_of_outcome_eq_error outcomeEq

/-- A step that gives no value keeps the value of the pad, and keeps the fault unless
it is a confirmation. -/
theorem apply_of_not_gives (quiet : ∀ value, ¬ step.Gives pad.entry value) :
    (pad.apply step).value = pad.value ∧
      (step ≠ .confirm → (pad.apply step).fault = pad.fault) := by
  cases step with
  | type c =>
      have kept : pad.apply (.type c) = { pad with entry := Entry.type pad.entry c } :=
        refresh_keeps fun value outcomeEq => quiet value (.type outcomeEq)
      rw [kept]
      exact ⟨rfl, fun _ => rfl⟩
  | erase =>
      have kept : pad.apply .erase = { pad with entry := Entry.erase pad.entry } :=
        refresh_keeps fun value outcomeEq => quiet value (.erase outcomeEq)
      rw [kept]
      exact ⟨rfl, fun _ => rfl⟩
  | clear => exact absurd .clear (quiet 0)
  | confirm =>
      obtain ⟨fault, outcomeEq⟩ := exists_outcome_eq_error
        fun value outcomeEq => quiet value (.confirm outcomeEq)
      rw [Pad.apply, confirm_of_outcome_eq_error outcomeEq]
      exact ⟨rfl, fun noConfirm => absurd rfl noConfirm⟩

end Pad

end Steps

namespace Pad

/-! ## Quiet runs -/

section Quiet

variable {pad : Pad} {steps : List Step}

theorem isQuiet_nil (pad : Pad) : IsQuiet pad [] := by
  intro earlier step later split
  simp at split

/-- A run is quiet as long as its last step gives nothing. -/
theorem isQuiet_append_singleton {step : Step} :
    IsQuiet pad (steps ++ [step]) ↔
      IsQuiet pad steps ∧ ∀ value, ¬ step.Gives (pad.run steps).entry value := by
  constructor
  · intro quiet
    constructor
    · intro earlier middle later split
      apply quiet earlier middle (later ++ [step])
      rw [split, List.append_assoc, List.cons_append]
    · exact quiet steps step [] rfl
  · rintro ⟨quiet, last⟩ earlier middle later split
    rcases List.eq_nil_or_concat later with rfl | ⟨front, final, rfl⟩
    · obtain ⟨rfl, isLast⟩ := List.append_inj' split rfl
      cases isLast
      exact last
    · rw [List.concat_eq_append, ← List.cons_append, ← List.append_assoc] at split
      exact quiet earlier middle front (List.append_inj' split rfl).1

/-- A quiet run keeps the value. -/
theorem IsQuiet.value_run_eq (quiet : IsQuiet pad steps) : (pad.run steps).value = pad.value := by
  induction steps using List.reverseRecOn with
  | nil => rfl
  | append_singleton steps step inductionHypothesis =>
      obtain ⟨quiet, last⟩ := isQuiet_append_singleton.mp quiet
      rw [run_append, ← inductionHypothesis quiet]
      exact (apply_of_not_gives last).1

/-- A quiet run without a confirmation keeps the fault. -/
theorem IsQuiet.fault_run_eq (quiet : IsQuiet pad steps) (noConfirm : Step.confirm ∉ steps) :
    (pad.run steps).fault = pad.fault := by
  induction steps using List.reverseRecOn with
  | nil => rfl
  | append_singleton steps step inductionHypothesis =>
      obtain ⟨quiet, last⟩ := isQuiet_append_singleton.mp quiet
      rw [List.mem_append, not_or, List.mem_singleton] at noConfirm
      rw [run_append, ← inductionHypothesis quiet noConfirm.1]
      exact (apply_of_not_gives last).2 (Ne.symm noConfirm.2)

end Quiet

/-! ## The last event -/

/-- The value that a step gives is kept by a quiet run behind it. -/
theorem value_run_of_gives {pad : Pad} {earlier later : List Step} {step : Step} {value : Float}
    (gives : step.Gives (pad.run earlier).entry value)
    (quiet : IsQuiet (pad.run (earlier ++ [step])) later) :
    (pad.run (earlier ++ step :: later)).value = value := by
  have stepEq : pad.run (earlier ++ [step]) = (pad.run earlier).apply step := run_append _ _ _
  rw [List.append_cons, run_append, quiet.value_run_eq, stepEq]
  exact gives.apply.1

/-- A run is quiet, or it is quiet behind the last step that gives a value. -/
theorem isQuiet_or_exists_gives (pad : Pad) (steps : List Step) :
    IsQuiet pad steps ∨
      ∃ earlier step later value, steps = earlier ++ step :: later ∧
        step.Gives (pad.run earlier).entry value ∧
        IsQuiet (pad.run (earlier ++ [step])) later := by
  induction steps using List.reverseRecOn with
  | nil => exact .inl (isQuiet_nil pad)
  | append_singleton steps last inductionHypothesis =>
      by_cases gives : ∃ value, last.Gives (pad.run steps).entry value
      · obtain ⟨value, gives⟩ := gives
        exact .inr ⟨steps, last, [], value, rfl, gives, isQuiet_nil _⟩
      · rw [not_exists] at gives
        rcases inductionHypothesis with quiet | ⟨earlier, step, later, value, rfl, given, quiet⟩
        · exact .inl (isQuiet_append_singleton.mpr ⟨quiet, gives⟩)
        · right
          rw [List.append_cons, run_append] at gives
          exact ⟨earlier, step, later ++ [last], value, List.append_assoc .., given,
            isQuiet_append_singleton.mpr ⟨quiet, gives⟩⟩

/-- The fault of a new pad after a run is that of a confirmation with no other
behind it, and nothing has been given since. -/
theorem exists_confirm_of_fault_run {steps : List Step} {fault : Fault}
    (faultEq : (run {} steps).fault = some fault) :
    ∃ earlier later, steps = earlier ++ Step.confirm :: later ∧
      (run {} earlier).outcome = .error fault ∧ Step.confirm ∉ later ∧
      IsQuiet (run {} (earlier ++ [Step.confirm])) later := by
  induction steps using List.reverseRecOn with
  | nil => cases faultEq
  | append_singleton steps last inductionHypothesis =>
      rw [run_append] at faultEq
      by_cases gives : ∃ value, last.Gives (run {} steps).entry value
      · obtain ⟨value, gives⟩ := gives
        cases gives.apply.2.symm.trans faultEq
      · rw [not_exists] at gives
        by_cases isConfirm : last = .confirm
        · subst isConfirm
          obtain ⟨cause, outcomeEq⟩ := exists_outcome_eq_error
            fun value outcomeEq => gives value (.confirm outcomeEq)
          have noted : (confirm (run {} steps)).fault = some fault := faultEq
          rw [confirm_of_outcome_eq_error outcomeEq] at noted
          cases noted
          exact ⟨steps, [], rfl, outcomeEq, by simp, isQuiet_nil _⟩
        · have kept := (apply_of_not_gives gives).2 isConfirm
          obtain ⟨earlier, later, rfl, outcomeEq, noConfirm, quiet⟩ :=
            inductionHypothesis (kept.symm.trans faultEq)
          rw [List.append_cons, run_append] at gives
          refine ⟨earlier, later ++ [last], List.append_assoc .., outcomeEq, ?_,
            isQuiet_append_singleton.mpr ⟨quiet, gives⟩⟩
          simp [noConfirm, Ne.symm isConfirm]

/-- A confirmation of a text without a value notes the fault and changes nothing else,
and a quiet run without another confirmation keeps the fault. -/
theorem fault_run_of_confirm {pad : Pad} {earlier later : List Step} {fault : Fault}
    (outcomeEq : (pad.run earlier).outcome = .error fault) (noConfirm : Step.confirm ∉ later)
    (quiet : IsQuiet (pad.run (earlier ++ [Step.confirm])) later) :
    (pad.run (earlier ++ Step.confirm :: later)).fault = some fault := by
  rw [List.append_cons, run_append, quiet.fault_run_eq noConfirm,
    run_confirm_of_outcome_eq_error outcomeEq]

/-- The value of a pad is what the last step that gave a value has given, or zero if
there is none.  A fault is noted if the last confirmation had it and no value has
been given since.  A confirmation of a text without a value keeps the text and the
value. -/
theorem value_and_fault_run (steps : List Step) :
    (∀ value, (run {} steps).value = value ↔
        (IsQuiet {} steps ∧ value = 0) ∨
          ∃ earlier step later, steps = earlier ++ step :: later ∧
            step.Gives (run {} earlier).entry value ∧
            IsQuiet (run {} (earlier ++ [step])) later) ∧
      (∀ fault, (run {} steps).fault = some fault ↔
        ∃ earlier later, steps = earlier ++ Step.confirm :: later ∧
          (run {} earlier).outcome = .error fault ∧ Step.confirm ∉ later ∧
          IsQuiet (run {} (earlier ++ [Step.confirm])) later) ∧
      ∀ fault, (run {} steps).outcome = .error fault →
        run {} (steps ++ [Step.confirm]) = { run {} steps with fault := some fault } := by
  refine ⟨?_, ?_, ?_⟩
  · intro value
    constructor
    · rintro rfl
      rcases isQuiet_or_exists_gives {} steps with
        quiet | ⟨earlier, step, later, given, rfl, gives, quiet⟩
      · exact .inl ⟨quiet, quiet.value_run_eq⟩
      · rw [value_run_of_gives gives quiet]
        exact .inr ⟨earlier, step, later, rfl, gives, quiet⟩
    · rintro (⟨quiet, rfl⟩ | ⟨earlier, step, later, rfl, gives, quiet⟩)
      · exact quiet.value_run_eq
      · exact value_run_of_gives gives quiet
  · intro fault
    constructor
    · exact exists_confirm_of_fault_run
    · rintro ⟨earlier, later, rfl, outcomeEq, noConfirm, quiet⟩
      exact fault_run_of_confirm outcomeEq noConfirm quiet
  · intro fault outcomeEq
    exact run_confirm_of_outcome_eq_error outcomeEq

/-- A division by zero that has been confirmed is a fault until the text has a value,
and the value is still that of the text in front of the division. -/
theorem value_and_fault_run_of_division :
    let divided : List Step := [.type '5', .type '÷', .type '0']
    let erased : List Step := [.type '5', .type '÷', .type '0', .confirm, .erase]
    let cause : Fault := .evaluation .divisionByZero
    (∃ earlier step later, erased = earlier ++ step :: later ∧
        step.Gives (run {} earlier).entry 5 ∧ IsQuiet (run {} (earlier ++ [step])) later) ∧
      (∃ earlier later, erased = earlier ++ Step.confirm :: later ∧
        (run {} earlier).outcome = .error cause ∧ Step.confirm ∉ later ∧
        IsQuiet (run {} (earlier ++ [Step.confirm])) later) ∧
      (run {} divided).outcome = .error cause ∧
      run {} (divided ++ [Step.confirm]) = { run {} divided with fault := some cause } := by
  intro divided erased cause
  obtain ⟨lastValue, lastFault, _⟩ := value_and_fault_run erased
  have valueEq : (run {} erased).value = 5 := by decide +kernel
  have faultEq : (run {} erased).fault = some cause := by decide +kernel
  have outcomeEq : (run {} divided).outcome = .error cause := by decide +kernel
  refine ⟨?_, (lastFault cause).mp faultEq, outcomeEq,
    (value_and_fault_run divided).2.2 cause outcomeEq⟩
  rcases (lastValue 5).mp valueEq with ⟨_, isZero⟩ | given
  · exact absurd isZero (by decide +kernel)
  · exact given

end Pad

end AmountPad
