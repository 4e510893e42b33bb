import AmountPad.Proofs.Pad.Reachable

/-!
# Typing a text again

Both spellings of an operator have its key, and a blank has none.  So typing the
plain spelling of a text does what typing the text does, and a text that a pad
has reached is reached again by typing either.
-/

namespace AmountPad

/-- Blanks have no key. -/
theorem ofChar?_of_isBlank {c : Char} (blank : isBlank c = true) : Key.ofChar? c = none := by
  have noLiteralChar : ¬ isLiteralChar c = true := by
    intro isChar
    rw [isBlank_eq_false_of_isLiteralChar isChar] at blank
    cases blank
  have noMark : ¬ isMark c = true := by
    intro mark
    obtain ⟨operator, rfl | rfl⟩ := isMark_iff.mp mark
    · rw [isBlank_glyph] at blank
      cases blank
    · cases operator <;> cases blank
  rw [isLiteralChar_iff, not_or] at noLiteralChar
  have noOperator : Operator.ofMark? c = none := by
    simpa [isMark] using noMark
  rw [Key.ofChar?, if_neg noLiteralChar.1, if_neg noLiteralChar.2, noOperator]
  rfl

namespace Entry

/-- The key of a character is all that matters to typing it. -/
theorem type_plainChar (text : Text) (c : Char) : type text (plainChar c) = type text c := by
  rw [type, ofChar?_plainChar, type]

/-- A character without a key leaves a text as it is. -/
theorem type_of_ofChar?_eq_none {text : Text} {c : Char} (nonempty : text ≠ [])
    (noKey : Key.ofChar? c = none) : type text c = text := by
  rw [type, noKey]
  exact orZero_of_ne_nil nonempty

/-- Typing the plain spelling of a text is typing the text. -/
theorem IsTyped.foldl_type_plain {start : Text} (typed : IsTyped start) (text : Text) :
    (plain text).foldl Entry.type start = text.foldl Entry.type start := by
  induction text generalizing start with
  | nil => rfl
  | cons c text inductionHypothesis =>
      rw [← List.singleton_append, plain_append, List.foldl_append, List.foldl_append]
      cases blank : isBlank c with
      | true =>
          have noKey := ofChar?_of_isBlank blank
          have ignored : plain [c] = [] := by
            simp [plain, blank]
          rw [ignored, List.foldl_nil, List.foldl_cons, List.foldl_nil,
            type_of_ofChar?_eq_none typed.ne_nil noKey]
          exact inductionHypothesis typed
      | false =>
          have typedChar : plain [c] = [plainChar c] := by
            simp [plain, blank]
          rw [typedChar, List.foldl_cons, List.foldl_nil, type_plainChar, List.foldl_cons,
            List.foldl_nil]
          exact inductionHypothesis (typed.type c)

end Entry

namespace Pad

/-- Typing a text that a pad has reached, in its own or in its plain spelling, gives
the text again. -/
theorem foldl_type_entry_run (steps : List Step) :
    (run {} steps).entry.foldl Entry.type Entry.zero = (run {} steps).entry ∧
      (plain (run {} steps).entry).foldl Entry.type Entry.zero = (run {} steps).entry := by
  have typed : Entry.IsTyped (run {} steps).entry :=
    isTyped_entry_run Entry.isTyped_zero steps
  constructor
  · exact typed.foldl_type
  · rw [Entry.isTyped_zero.foldl_type_plain]
    exact typed.foldl_type

end Pad

end AmountPad
