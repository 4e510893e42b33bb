import AmountPad.Proofs.Decimal.Exact
import AmountPad.Proofs.Token.Reading

/-!
# Literals as tokens

A literal by itself, or in front of anything that does not go on with it, is read as
the double nearest to its exact value, or it is too large.  Literals with the same
value are the same token.
-/

namespace AmountPad.Token

variable {literal : Text}

/-- A literal by itself is read as one item. -/
theorem readAll_of_isLiteral (isLiteral : IsLiteral literal) :
    readAll literal = [ofLiteral literal] := by
  have read := next?_literal isLiteral endsLiteral_nil
  rw [List.append_nil] at read
  cases itemEq : ofLiteral literal with
  | ok token =>
      rw [itemEq] at read
      rw [readAll_of_next? read, readAll_nil]
  | error fault =>
      rw [itemEq] at read
      rw [readAll_of_next? read, readAll_nil]

theorem ofText_of_isLiteral (isLiteral : IsLiteral literal) :
    ofText literal = (ofLiteral literal).map fun token => [token] := by
  have plainEq := plain_eq_self_of_isLiteralChar isLiteral.chars
  rw [ofText, plainEq, if_neg isLiteral.ne_nil, readAll_of_isLiteral isLiteral, List.mapM_cons,
    List.mapM_nil]
  cases ofLiteral literal <;> rfl

/-- A literal that is not too large is the double nearest to it. -/
theorem ofText_literal_eq_ok_iff (isLiteral : IsLiteral literal) {value : Float} :
    ofText literal = .ok [.number value] ↔
      Decimal.literalRat literal < 2 ^ 1024 - 2 ^ 970 ∧
        Binary64.IsNearest (Decimal.literalRat literal) value := by
  rw [← Decimal.toFloat?_ofLiteral_eq_some_iff, ofText_of_isLiteral isLiteral,
    ofLiteral_of_isLiteral isLiteral]
  cases (Decimal.ofLiteral literal).toFloat? <;> simp [Except.map]

/-- A literal is read as the one double that is nearest to its exact value if that is
below `2 ^ 1024 - 2 ^ 970`, and otherwise it is too large.  So literals with the same
exact value are read as the same number. -/
theorem ofText_literal_eq_nearest :
    (∀ literal, IsLiteral literal →
        (Decimal.literalRat literal < 2 ^ 1024 - 2 ^ 970 →
          ∃ value, Binary64.IsNearest (Decimal.literalRat literal) value ∧
            (∀ other, Binary64.IsNearest (Decimal.literalRat literal) other → other = value) ∧
            ofText literal = .ok [.number value] ∧
            ∀ rest, EndsLiteral rest →
              next? (literal ++ rest) = some (.ok (.number value), rest)) ∧
        (2 ^ 1024 - 2 ^ 970 ≤ Decimal.literalRat literal →
          ofText literal = .error (.tooLarge literal) ∧
            ∀ rest, EndsLiteral rest →
              next? (literal ++ rest) = some (.error (.tooLarge literal), []))) ∧
      ∀ first second, IsLiteral first → IsLiteral second →
        Decimal.literalRat first = Decimal.literalRat second →
          ∀ value, ofText first = .ok [.number value] ↔ ofText second = .ok [.number value] := by
  constructor
  · intro literal isLiteral
    have itemEq := ofLiteral_of_isLiteral isLiteral
    constructor
    · intro small
      cases valueEq : (Decimal.ofLiteral literal).toFloat? with
      | none =>
          exact absurd (Decimal.toFloat?_ofLiteral_eq_none_iff.mp valueEq) (not_le_of_gt small)
      | some value =>
          obtain ⟨_, nearest⟩ := Decimal.toFloat?_ofLiteral_eq_some_iff.mp valueEq
          rw [valueEq] at itemEq
          refine ⟨value, nearest, ?_, ?_, ?_⟩
          · intro other otherNearest
            exact otherNearest.unique (Decimal.literalRat_nonneg literal) nearest
          · rw [ofText_of_isLiteral isLiteral, itemEq]
            rfl
          · intro rest ends
            rw [next?_literal isLiteral ends, itemEq]
    · intro large
      rw [Decimal.toFloat?_ofLiteral_eq_none_iff.mpr large] at itemEq
      constructor
      · rw [ofText_of_isLiteral isLiteral, itemEq]
        rfl
      · intro rest ends
        rw [next?_literal isLiteral ends, itemEq]
  · intro first second isFirst isSecond same value
    rw [ofText_literal_eq_ok_iff isFirst, ofText_literal_eq_ok_iff isSecond, same]

/-- The first whole number that is too large, and the one before it.  A half is the same
number with zeros on both sides. -/
theorem ofText_literal_eq_nearest_of_largest :
    let middle := Nat.toDigits 10 (2 ^ 1024 - 2 ^ 970)
    let below := Nat.toDigits 10 (2 ^ 1024 - 2 ^ 970 - 1)
    (IsLiteral below ∧ Decimal.literalRat below < 2 ^ 1024 - 2 ^ 970 ∧
        EndsLiteral "+1".toList ∧
        ∃ value, Binary64.IsNearest (Decimal.literalRat below) value ∧
          next? (below ++ "+1".toList) = some (.ok (.number value), "+1".toList)) ∧
      (IsLiteral middle ∧ 2 ^ 1024 - 2 ^ 970 ≤ Decimal.literalRat middle ∧
        ofText middle = .error (.tooLarge middle)) ∧
      (IsLiteral ".5".toList ∧ IsLiteral "00.50".toList ∧
        Decimal.literalRat ".5".toList = Decimal.literalRat "00.50".toList ∧
        (ofText ".5".toList = .ok [.number 0.5] ↔ ofText "00.50".toList = .ok [.number 0.5])) := by
  intro middle below
  obtain ⟨literals, sameValues⟩ := ofText_literal_eq_nearest
  have isBelow : IsLiteral below := by decide +kernel
  have isMiddle : IsLiteral middle := by decide +kernel
  have small : Decimal.literalRat below < 2 ^ 1024 - 2 ^ 970 := by decide +kernel
  have large : 2 ^ 1024 - 2 ^ 970 ≤ Decimal.literalRat middle := by decide +kernel
  have ends : EndsLiteral "+1".toList := endsLiteral_symbol_cons .plus ['1']
  have isHalf : IsLiteral ".5".toList := by decide +kernel
  have isOther : IsLiteral "00.50".toList := by decide +kernel
  have same : Decimal.literalRat ".5".toList = Decimal.literalRat "00.50".toList := by
    decide +kernel
  obtain ⟨value, nearest, _, _, readOn⟩ := (literals below isBelow).1 small
  exact ⟨⟨isBelow, small, ends, value, nearest, readOn _ ends⟩,
    ⟨isMiddle, large, ((literals middle isMiddle).2 large).1⟩,
    isHalf, isOther, same, sameValues _ _ isHalf isOther same 0.5⟩

end AmountPad.Token
