import AmountPad.Decimal
import AmountPad.Decimal.Fixed
import AmountPad.Proofs.Span
import AmountPad.Proofs.Spelling
import Mathlib

/-!
# Reading fixed decimals back

The trimmed form of a number of `10 ^ -places` is a literal whose digits before
the point have no superfluous zero in front.  It denotes the number again, with
fewer places if zeros were left out.
-/

namespace AmountPad.Decimal

/-! ## Digits -/

theorem isDigit_digitChar {digit : Nat} (small : digit < 10) :
    (Nat.digitChar digit).isDigit = true := by
  have all : ∀ digit : Fin 10, (Nat.digitChar digit).isDigit = true := by decide
  exact all ⟨digit, small⟩

theorem isDigit_fractionDigits (places number : Nat) :
    ∀ c ∈ fractionDigits places number, c.isDigit = true := by
  induction places generalizing number with
  | zero => simp [fractionDigits]
  | succ places inductionHypothesis =>
      intro c member
      rcases List.mem_append.mp member with inFront | isLast
      · exact inductionHypothesis _ c inFront
      · rw [List.mem_singleton.mp isLast]
        exact isDigit_digitChar (Nat.mod_lt _ (by decide))

theorem isDigit_wholeDigits (places number : Nat) :
    ∀ c ∈ wholeDigits places number, c.isDigit = true :=
  fun _ member => Nat.isDigit_of_mem_toDigits (by decide) (by decide) member

theorem wholeDigits_ne_nil (places number : Nat) : wholeDigits places number ≠ [] :=
  Nat.toDigits_ne_nil

/-- A positive number has no zero in front. -/
theorem head?_toDigits_ne {number : Nat} (positive : 0 < number) :
    (Nat.toDigits 10 number).head? ≠ some '0' := by
  induction number using Nat.strongRecOn with
  | _ number inductionHypothesis =>
      by_cases small : number < 10
      · have all : ∀ digit : Fin 10, 0 < digit.val → Nat.digitChar digit ≠ '0' := by
          decide
        rw [Nat.toDigits_of_lt_base small]
        simpa using all ⟨number, small⟩ positive
      · have front := inductionHypothesis (number / 10) (by omega) (by omega)
        rw [Nat.toDigits_of_base_le (by decide) (by omega)]
        cases digits : Nat.toDigits 10 (number / 10) with
        | nil => exact absurd digits Nat.toDigits_ne_nil
        | cons first rest =>
            rw [digits] at front
            exact front

/-- The integer digits are a lone zero, or have no zero in front. -/
theorem wholeDigits_eq_or_head?_ne (places number : Nat) :
    wholeDigits places number = ['0'] ∨
      (wholeDigits places number).head? ≠ some '0' := by
  rcases Nat.eq_zero_or_pos (number / Nat.pow 10 places) with isZero | positive
  · exact .inl (by rw [wholeDigits, isZero, Nat.toDigits_zero])
  · exact .inr (head?_toDigits_ne positive)

theorem isDigit_dropTrailingZeros {text : Text} (digits : ∀ c ∈ text, c.isDigit = true) :
    ∀ c ∈ dropTrailingZeros text, c.isDigit = true := by
  obtain ⟨count, equal⟩ := exists_append_dropTrailingZeros text
  intro c member
  apply digits
  rw [equal]
  exact List.mem_append_left _ member

/-! ## Values -/

/-- The digits behind the point have the value of the number's last places. -/
theorem ofDigitChars_fractionDigits (places number start : Nat) :
    Nat.ofDigitChars 10 (fractionDigits places number) start =
      10 ^ places * start + number % 10 ^ places := by
  induction places generalizing number with
  | zero => simp [fractionDigits, Nat.mod_one]
  | succ places inductionHypothesis =>
      have last : number % 10 < 10 := Nat.mod_lt _ (by decide)
      have split : number % 10 ^ (places + 1) =
          10 * (number / 10 % 10 ^ places) + number % 10 := by
        rw [Nat.pow_succ, Nat.mul_comm, Nat.mod_mul]
        omega
      rw [fractionDigits, Nat.ofDigitChars_append, inductionHypothesis,
        Nat.ofDigitChars_cons_digitChar_of_lt_ten last, Nat.ofDigitChars_nil, split,
        Nat.pow_succ]
      generalize number / 10 % 10 ^ places = rest
      rw [Nat.mul_add, Nat.mul_comm (10 ^ places) 10, Nat.mul_assoc]
      omega

/-- All digits of a number in order have the value of the number. -/
theorem ofDigitChars_wholeDigits_append (places number : Nat) :
    Nat.ofDigitChars 10 (wholeDigits places number ++ fractionDigits places number) 0 =
      number := by
  rw [Nat.ofDigitChars_append, wholeDigits, Nat.ofDigitChars_ten_toDigits,
    ofDigitChars_fractionDigits]
  exact Nat.div_add_mod number (10 ^ places)

section Points

variable {whole : Text}

/-- A text without a point denotes an integer. -/
theorem ofLiteral_of_notMem (noPoint : '.' ∉ whole) :
    ofLiteral whole = ⟨Nat.ofDigitChars 10 whole 0, 0⟩ := by
  have inside : ∀ c ∈ whole, decide (c ≠ '.') = true :=
    fun c member => decide_eq_true (ne_of_mem_of_not_mem member noPoint)
  have taken : (whole ++ []).takeWhile (· ≠ '.') = whole :=
    takeWhile_append_of_ends inside (by simp)
  have dropped : (whole ++ []).dropWhile (· ≠ '.') = [] :=
    dropWhile_append_of_ends inside (by simp)
  rw [List.append_nil] at taken dropped
  rw [ofLiteral, taken, dropped, List.drop_nil, List.append_nil]
  rfl

/-- What stands behind the first point are the places. -/
theorem ofLiteral_append_first_point (noPoint : '.' ∉ whole) (fraction : Text) :
    ofLiteral (whole ++ '.' :: fraction) =
      ⟨Nat.ofDigitChars 10 (whole ++ fraction) 0, fraction.length⟩ := by
  have inside : ∀ c ∈ whole, decide (c ≠ '.') = true :=
    fun c member => decide_eq_true (ne_of_mem_of_not_mem member noPoint)
  have ends : ∀ c ∈ ('.' :: fraction).head?, decide (c ≠ '.') = false := by
    simp
  rw [ofLiteral, takeWhile_append_of_ends inside ends,
    dropWhile_append_of_ends inside ends]
  rfl

theorem point_notMem_of_isDigit (digits : ∀ c ∈ whole, c.isDigit = true) : '.' ∉ whole :=
  fun point => ne_point_of_isDigit (digits '.' point) rfl

/-- A literal without a point denotes an integer. -/
theorem ofLiteral_of_isDigit (digits : ∀ c ∈ whole, c.isDigit = true) :
    ofLiteral whole = ⟨Nat.ofDigitChars 10 whole 0, 0⟩ :=
  ofLiteral_of_notMem (point_notMem_of_isDigit digits)

/-- The digits behind the point are the places. -/
theorem ofLiteral_append_point (digits : ∀ c ∈ whole, c.isDigit = true) (fraction : Text) :
    ofLiteral (whole ++ '.' :: fraction) =
      ⟨Nat.ofDigitChars 10 (whole ++ fraction) 0, fraction.length⟩ :=
  ofLiteral_append_first_point (point_notMem_of_isDigit digits) fraction

end Points

/-- One more digit makes the coefficient ten times as large and adds to it, and behind a
point it is one more place. -/
theorem ofLiteral_concat_digitChar {digit : Nat} (small : digit < 10) (literal : Text) :
    ofLiteral (literal ++ [Nat.digitChar digit]) =
      ⟨10 * (ofLiteral literal).coefficient + digit,
        (ofLiteral literal).places + if '.' ∈ literal then 1 else 0⟩ := by
  have notPoint : Nat.digitChar digit ≠ '.' := ne_point_of_isDigit (isDigit_digitChar small)
  have value (front : Text) : Nat.ofDigitChars 10 (front ++ [Nat.digitChar digit]) 0 =
      10 * Nat.ofDigitChars 10 front 0 + digit := by
    rw [Nat.ofDigitChars_append, Nat.ofDigitChars_cons_digitChar_of_lt_ten small,
      Nat.ofDigitChars_nil]
  by_cases point : '.' ∈ literal
  · obtain ⟨whole, fraction, rfl, noPoint⟩ := List.eq_append_cons_of_mem point
    rw [List.append_assoc, List.cons_append, ofLiteral_append_first_point noPoint,
      ofLiteral_append_first_point noPoint, ← List.append_assoc, value, if_pos point,
      List.length_append, List.length_singleton]
  · have noPoint : '.' ∉ literal ++ [Nat.digitChar digit] := by
      simp [point, notPoint.symm]
    rw [ofLiteral_of_notMem noPoint, ofLiteral_of_notMem point, value, if_neg point]

/-- The trimmed form denotes the number. -/
theorem ofLiteral_trimmedText (places number : Nat) :
    (ofLiteral (trimmedText places number)).coefficient * 10 ^ places =
      number * 10 ^ (ofLiteral (trimmedText places number)).places := by
  have denotes : ofLiteral (trimmedText places number) =
      ⟨Nat.ofDigitChars 10 (wholeDigits places number ++
          dropTrailingZeros (fractionDigits places number)) 0,
        (dropTrailingZeros (fractionDigits places number)).length⟩ := by
    have digits := isDigit_wholeDigits places number
    by_cases noFraction : dropTrailingZeros (fractionDigits places number) = []
    · rw [trimmedText, if_pos noFraction, ofLiteral_of_isDigit digits, noFraction]
      simp
    · rw [trimmedText, if_neg noFraction, ofLiteral_append_point digits]
  rcases exists_append_dropTrailingZeros (fractionDigits places number) with
    ⟨count, equal⟩
  have value := ofDigitChars_wholeDigits_append places number
  have length := length_fractionDigits places number
  rw [denotes]
  dsimp only
  rw [equal, List.length_append, List.length_replicate] at length
  rw [equal, ← List.append_assoc, Nat.ofDigitChars_append,
    Nat.ofDigitChars_replicate_zero] at value
  generalize dropTrailingZeros (fractionDigits places number) = fraction at length value ⊢
  generalize Nat.ofDigitChars 10 (wholeDigits places number ++ fraction) 0 =
    coefficient at value ⊢
  calc
    coefficient * 10 ^ places =
        coefficient * (10 ^ fraction.length * 10 ^ count) := by
          rw [← length, Nat.pow_add]
    _ = 10 ^ count * coefficient * 10 ^ fraction.length := by ac_rfl
    _ = number * 10 ^ fraction.length := by rw [value]

end AmountPad.Decimal
