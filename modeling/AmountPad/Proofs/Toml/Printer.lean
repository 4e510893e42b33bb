import AmountPad.Proofs.Toml.Document

/-!
# The printed document

The printer writes every character in one of its spellings, every scalar in one of the ways
to write it, and every assignment on a line that ends in a line feed.  So what it prints is
a document of its assignments.
-/

namespace AmountPad.Toml

/-! ## Characters -/

theorem areDigits_fourDigits (code : Nat) :
    List.Forall₂ IsHexDigit ([4096, 256, 16, 1].map fun place => code / place % 16)
      (fourDigits code) := by
  have isDigit (place : Nat) :
      IsHexDigit (code / place % 16) (Nat.digitChar (code / place % 16)) :=
    .lower (Nat.mod_lt _ (by decide))
  exact .cons (isDigit _) (.cons (isDigit _) (.cons (isDigit _) (.cons (isDigit _) .nil)))

theorem ofHexDigits_fourDigits {code : Nat} (short : code < 65536) :
    ofHexDigits ([4096, 256, 16, 1].map fun place => code / place % 16) = code := by
  simp only [ofHexDigits, List.map_cons, List.map_nil, List.foldl_cons, List.foldl_nil]
  omega

/-- A character that does not stand for itself has a short code. -/
theorem toNat_lt_of_not_isPlainChar {c : Char} (notPlain : isPlainChar c = false) :
    c.toNat < 65536 := by
  simp only [isPlainChar, Bool.or_eq_false_iff, Bool.and_eq_false_iff,
    decide_eq_false_iff_not] at notPlain
  omega

theorem spells_escapeChar (c : Char) : Spells c (escapeChar c) := by
  unfold escapeChar
  split
  · rename_i isMark
    rw [Bool.or_eq_true, decide_eq_true_eq, decide_eq_true_eq] at isMark
    rcases isMark with rfl | rfl <;> exact .letter (by decide)
  · rename_i notMark
    rw [Bool.or_eq_true, decide_eq_true_eq, decide_eq_true_eq, not_or] at notMark
    split
    · rename_i isPlain
      exact .self isPlain notMark.1 notMark.2
    · rename_i notPlain
      have short := toNat_lt_of_not_isPlainChar (Bool.eq_false_iff.mpr notPlain)
      exact .shortCode (areDigits_fourDigits _) rfl (ofHexDigits_fourDigits short)

theorem isEscaped_flatMap (text : Text) : IsEscaped text (text.flatMap escapeChar) := by
  induction text with
  | nil => exact .nil
  | cons c text inductionHypothesis =>
      rw [List.flatMap_cons]
      exact .cons (spells_escapeChar c) inductionHypothesis

/-! ## Scalars -/

theorem isGrouped_self {digits : Text} (nonempty : digits ≠ [])
    (areDigits : ∀ c ∈ digits, c.isDigit = true) : IsGrouped digits digits := by
  induction digits with
  | nil => exact absurd rfl nonempty
  | cons c digits inductionHypothesis =>
      obtain ⟨isDigit, others⟩ := List.forall_mem_cons.mp areDigits
      by_cases isLast : digits = []
      · subst isLast
        exact .last isDigit
      · exact .next isDigit (inductionHypothesis isLast others)

theorem isDecimal_integerText (number : Int) : IsDecimal number (integerText number) := by
  have isGrouped : IsGrouped (Nat.toDigits 10 number.natAbs) (Nat.toDigits 10 number.natAbs) :=
    isGrouped_self Nat.toDigits_ne_nil
      fun _ member => Nat.isDigit_of_mem_toDigits (by decide) (by decide) member
  unfold integerText
  split
  · have isMinus := IsDecimal.minus isGrouped
    rwa [show -(number.natAbs : Int) = number by omega] at isMinus
  · have isUnsigned := IsDecimal.unsigned isGrouped
    rwa [show (number.natAbs : Int) = number by omega] at isUnsigned

/-- Whether a scalar has no integer of more than 64 bits. -/
def Scalar.IsShort (value : Scalar) : Prop :=
  ∀ number, value = .integer number →
    -0x8000000000000000 ≤ number ∧ number ≤ 0x7FFFFFFFFFFFFFFF

theorem Scalar.IsShort.isWritten {value : Scalar} (isShort : value.IsShort) :
    value.IsWritten value.written := by
  cases value with
  | string text => exact .string (isEscaped_flatMap text)
  | boolean flag => exact .boolean flag
  | integer number =>
      obtain ⟨low, high⟩ := isShort number rfl
      exact .integer low high (isDecimal_integerText number)

/-! ## Documents -/

theorem isDocument_document {assignments : List Assignment}
    (areBare : ∀ assignment ∈ assignments, IsBareKey assignment.key)
    (areShort : ∀ assignment ∈ assignments, assignment.value.IsShort) :
    IsDocument assignments (document assignments) := by
  induction assignments with
  | nil => exact .nil
  | cons assignment assignments inductionHypothesis =>
      obtain ⟨isBare, othersBare⟩ := List.forall_mem_cons.mp areBare
      obtain ⟨isShort, othersShort⟩ := List.forall_mem_cons.mp areShort
      rw [document, List.flatMap_cons]
      exact .cons (.intro isBare isShort.isWritten) .lineFeed
        (inductionHypothesis othersBare othersShort)

end AmountPad.Toml
