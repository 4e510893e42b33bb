import AmountPad.Pad
import AmountPad.Proofs.Amount.Spelling
import AmountPad.Proofs.Entry.Typing

/-!
# The texts of a pad

The text of a pad stays in the language of typed texts: keys and erasing act on
the text alone, and a confirmation puts the text of a value in its place.  Every
text of the language is reached by typing it.
-/

namespace AmountPad.Pad

variable {pad : Pad}

/-! ## Steps and the text -/

@[simp]
theorem entry_refresh (pad : Pad) : pad.refresh.entry = pad.entry := by
  unfold refresh
  split <;> rfl

@[simp]
theorem entry_type (pad : Pad) (c : Char) :
    (pad.type c).entry = Entry.type pad.entry c :=
  entry_refresh _

@[simp]
theorem entry_erase (pad : Pad) : pad.erase.entry = Entry.erase pad.entry :=
  entry_refresh _

/-- A confirmation keeps the text or puts the text of a value in its place. -/
theorem entry_confirm (pad : Pad) :
    pad.confirm.entry = pad.entry ∨ ∃ value, pad.confirm.entry = Amount.padText value := by
  unfold confirm
  split
  · exact .inr ⟨_, rfl⟩
  · exact .inl rfl

/-- Every step leaves a text that can be typed. -/
theorem isTyped_entry_apply (typed : Entry.IsTyped pad.entry) (step : Step) :
    Entry.IsTyped (pad.apply step).entry := by
  cases step with
  | type c =>
      rw [apply, entry_type]
      exact typed.type c
  | erase =>
      rw [apply, entry_erase]
      exact typed.erase
  | clear => exact Entry.isTyped_zero
  | confirm =>
      rw [apply]
      rcases pad.entry_confirm with kept | ⟨value, replaced⟩
      · rw [kept]
        exact typed
      · rw [replaced]
        exact .complete (Amount.isComplete_padText value)

/-- Every run leaves a text that can be typed. -/
theorem isTyped_entry_run (typed : Entry.IsTyped pad.entry) (steps : List Step) :
    Entry.IsTyped (pad.run steps).entry := by
  induction steps generalizing pad with
  | nil => exact typed
  | cons step steps inductionHypothesis =>
      rw [run_cons]
      exact inductionHypothesis (isTyped_entry_apply typed step)

/-- Typing changes the text as if there were nothing else in the pad. -/
theorem entry_run_type (pad : Pad) (keys : List Char) :
    (pad.run (keys.map .type)).entry = keys.foldl Entry.type pad.entry := by
  induction keys generalizing pad with
  | nil => rfl
  | cons c keys inductionHypothesis =>
      rw [List.map_cons, run_cons, inductionHypothesis, apply, entry_type,
        List.foldl_cons]

/-! ## Reachable texts -/

/-- The texts that a new pad can reach are those that can be typed, and typing
alone reaches them all. -/
theorem exists_run_entry_eq_iff_isTyped (text : Text) :
    ((∃ steps : List Step, (run {} steps).entry = text) ↔ Entry.IsTyped text) ∧
      (Entry.IsTyped text ↔ ∃ keys : List Char, (run {} (keys.map .type)).entry = text) := by
  have isTyped : ∀ steps : List Step, (run {} steps).entry = text → Entry.IsTyped text := by
    rintro steps rfl
    exact isTyped_entry_run Entry.isTyped_zero steps
  have typing : Entry.IsTyped text → (run {} (text.map .type)).entry = text := by
    intro typed
    rw [entry_run_type]
    exact typed.foldl_type
  constructor
  · constructor
    · rintro ⟨steps, reached⟩
      exact isTyped steps reached
    · intro typed
      exact ⟨_, typing typed⟩
  · constructor
    · intro typed
      exact ⟨_, typing typed⟩
    · rintro ⟨keys, reached⟩
      exact isTyped _ reached

end AmountPad.Pad
