import AmountPad.Proofs.Pad.History
import AmountPad.Session

/-!
# What a report says of a finished text

A finished text is reported with an equals sign and the value of the pad.  That
is the value of the last text in the history that had one: of the text itself,
unless one of its numbers or results is too large or a divisor is zero.
-/

namespace AmountPad.Session

/-- The text of a pad as it is reported. -/
def shownEntry (settings : Settings) (pad : Pad) : Text :=
  if settings.asciiOperators then plain pad.entry else pad.entry

/-- The line about the fault of a pad. -/
def faultLine (pad : Pad) : Text :=
  if pad.fault.isSome then "Error, ".toList ++ Fault.notice ++ ['\n'] else []

/-- A finished text is reported with the value of the pad. -/
theorem report_of_not_isUnfinished (settings : Settings) {pad : Pad}
    (finished : pad.isUnfinished = false) :
    report settings pad =
      shownEntry settings pad ++ "  = ".toList ++ Amount.plainText pad.value ++ ['\n'] ++
        faultLine pad := by
  simp only [report, finished, Bool.false_eq_true, if_false, shownEntry, faultLine,
    List.append_assoc]

/-- A finished text is reported with the value of the last text in the history
that had one.  That is the value of the text itself, or the text has a literal or
a result that is too large, or a divisor that is zero. -/
theorem report_run_of_finished (settings : Settings) (steps : List Step)
    (finished : (Pad.run {} steps).isUnfinished = false) :
    ∃ earlier later value, steps = earlier ++ later ∧
      (Pad.run {} earlier).outcome = .ok value ∧
      (∀ middle, middle <+: later → middle ≠ [] →
        ∃ fault, (Pad.run {} (earlier ++ middle)).outcome = .error fault) ∧
      report settings (Pad.run {} steps) =
        shownEntry settings (Pad.run {} steps) ++ "  = ".toList ++ Amount.plainText value ++
          ['\n'] ++ faultLine (Pad.run {} steps) ∧
      ((Pad.run {} steps).outcome = .ok value ∨
        (∃ literal, (Pad.run {} steps).outcome = .error (.reading (.tooLarge literal))) ∨
        (Pad.run {} steps).outcome = .error (.evaluation .divisionByZero) ∨
        (Pad.run {} steps).outcome = .error (.evaluation .notFinite)) := by
  have typed : Entry.IsTyped (Pad.run {} steps).entry :=
    Pad.isTyped_entry_run Entry.isTyped_zero steps
  obtain ⟨earlier, later, value, stepsEq, hasValue, noValue, textEq⟩ :=
    Pad.exists_last_outcome steps
  refine ⟨earlier, later, value, stepsEq, hasValue, noValue, ?_, ?_⟩
  · rw [report_of_not_isUnfinished settings finished, textEq]
  · rcases typed.calculateFinished_cases finished with
      ⟨answer, isAnswer, outcomeEq⟩ | ⟨literal, outcomeEq⟩
    · cases isAnswer with
      | value isFinite =>
          have isLast : later = [] := by
            by_contra someStep
            obtain ⟨fault, failed⟩ := noValue later (List.prefix_refl later) someStep
            rw [← stepsEq] at failed
            cases failed.symm.trans outcomeEq
          rw [stepsEq, isLast, List.append_nil]
          exact .inl hasValue
      | divisionByZero => exact .inr (.inr (.inl outcomeEq))
      | notFinite => exact .inr (.inr (.inr outcomeEq))
    · exact .inr (.inl ⟨literal, outcomeEq⟩)

/-- While a divisor is zero, the value of the text before it is reported. -/
theorem report_run_of_finished_division :
    let steps : List Step := [.type '5', .type '÷', .type '0']
    (Pad.run {} steps).isUnfinished = false ∧
      ∃ earlier later value, steps = earlier ++ later ∧
        (Pad.run {} earlier).outcome = .ok value ∧
        report { asciiOperators := true } (Pad.run {} steps) =
          "5/0  = ".toList ++ Amount.plainText value ++ ['\n'] := by
  intro steps
  have finished : (Pad.run {} steps).isUnfinished = false := by decide +kernel
  have shown : shownEntry { asciiOperators := true } (Pad.run {} steps) = "5/0".toList := by
    decide +kernel
  have noFault : faultLine (Pad.run {} steps) = [] := by decide +kernel
  obtain ⟨earlier, later, value, stepsEq, hasValue, _, reported, _⟩ :=
    report_run_of_finished { asciiOperators := true } steps finished
  rw [shown, noFault, List.append_nil] at reported
  exact ⟨finished, earlier, later, value, stepsEq, hasValue, reported⟩

/-- A report can put an equals sign between a division by zero and a value. -/
theorem report_of_division_by_zero :
    let pad := Pad.run {} [.type '5', .type '÷', .type '0']
    pad.isUnfinished = false ∧ report {} pad = "5÷0  = 5\n".toList ∧
      pad.outcome = .error (.evaluation .divisionByZero) := by
  decide +kernel

end AmountPad.Session
