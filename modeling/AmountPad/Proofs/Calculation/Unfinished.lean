import AmountPad.Proofs.Calculation.Shape
import AmountPad.Proofs.Decimal.Fixed
import AmountPad.Proofs.Entry.Chain
import Mathlib.Data.List.Induction

/-!
# What is hidden while a text is unfinished

A text is unfinished by its last character.  If that is an operator, or there is
none, the text is no chain and has no value that could be hidden.  If it is a
point, the text without the point is finished and has the same tokens, since a
literal denotes the same decimal with a point at its end and without it.
-/

namespace AmountPad

/-! ## The last character of the plain spelling -/

theorem plain_append_of_isBlank (front : Text) {blanks : Text}
    (blank : ∀ c ∈ blanks, isBlank c = true) : plain (front ++ blanks) = plain front := by
  have noneLeft : (blanks.filter fun c => !isBlank c) = [] := by
    simpa [List.filter_eq_nil_iff] using blank
  rw [plain_append, plain.eq_def blanks, noneLeft, List.map_nil, List.append_nil]

theorem plain_concat (front : Text) {c : Char} (visible : isBlank c = false) :
    plain (front ++ [c]) = plain front ++ [plainChar c] := by
  rw [plain_append]
  simp [plain, visible]

/-- The last character of the plain spelling is that of the last character of the
text that is not blank. -/
theorem exists_last_of_plain {text : Text} {c : Char}
    (isLast : (plain text).getLast? = some c) :
    ∃ front d blanks, text = front ++ d :: blanks ∧ plainChar d = c ∧
      isBlank d = false ∧ ∀ b ∈ blanks, isBlank b = true := by
  induction text using List.reverseRecOn with
  | nil => cases isLast
  | append_singleton front last inductionHypothesis =>
      cases blank : isBlank last with
      | false =>
          rw [plain_concat front blank, List.getLast?_concat] at isLast
          exact ⟨front, last, [], rfl, Option.some.inj isLast, blank, by simp⟩
      | true =>
          rw [plain_append_of_isBlank front (by simpa using blank)] at isLast
          obtain ⟨shorter, d, blanks, rfl, plainEq, visible, blanksBlank⟩ :=
            inductionHypothesis isLast
          refine ⟨shorter, d, blanks ++ [last], by simp, plainEq, visible, ?_⟩
          simpa [or_imp, forall_and, blank] using blanksBlank

/-! ## A point at the end -/

/-- A literal that ends in a point has nothing but digits before it. -/
theorem IsLiteral.isDigit_of_append_point {front : Text} (isLiteral : IsLiteral (front ++ ['.'])) :
    front ≠ [] ∧ ∀ c ∈ front, c.isDigit = true := by
  have noPoint : '.' ∉ front := by
    have onePoint := isLiteral.onePoint
    rw [List.count_append, List.count_singleton_self] at onePoint
    exact List.count_eq_zero.mp (by omega)
  constructor
  · rintro rfl
    obtain ⟨c, member, isDigit⟩ := isLiteral.someDigit
    exact ne_point_of_isDigit isDigit (List.mem_singleton.mp member)
  · intro c member
    rcases isLiteralChar_iff.mp (isLiteral.chars c (List.mem_append_left _ member)) with
      isDigit | rfl
    · exact isDigit
    · exact absurd member noPoint

/-- A point at the end of a literal changes nothing of what it denotes. -/
theorem Decimal.ofLiteral_append_last_point {digits : Text}
    (areDigits : ∀ c ∈ digits, c.isDigit = true) :
    ofLiteral (digits ++ ['.']) = ofLiteral digits := by
  rw [ofLiteral_append_point areDigits, ofLiteral_of_isDigit areDigits, List.append_nil]
  rfl

/-- Without a point at its end a text writes out the same tokens, and ends in a
digit. -/
theorem Token.Writes.of_append_point {text : Text} {tokens : List Token}
    (writes : Writes text tokens) {front : Text} (textEq : text = front ++ ['.']) :
    Writes front tokens ∧ ∃ digit, front.getLast? = some digit ∧ digit.isDigit = true := by
  induction writes generalizing front with
  | nil => simp at textEq
  | @operator text tokens operator _ inductionHypothesis =>
      cases front with
      | nil => cases operator <;> cases textEq
      | cons c rest =>
          simp only [List.cons_append, List.cons.injEq] at textEq
          obtain ⟨rfl, restEq⟩ := textEq
          obtain ⟨writes, digit, isLast, isDigit⟩ := inductionHypothesis restEq
          refine ⟨.operator operator writes, digit, ?_, isDigit⟩
          rw [List.getLast?_cons, isLast]
          rfl
  | @number literal value text tokens isLiteral valueEq ends writes inductionHypothesis =>
      rcases List.eq_nil_or_concat text with rfl | ⟨rest, last, rfl⟩
      · rw [List.append_nil] at textEq
        subst literal
        obtain ⟨nonempty, digits⟩ := isLiteral.isDigit_of_append_point
        rw [Decimal.ofLiteral_append_last_point digits] at valueEq
        have isWhole := (Entry.IsNumeral.integer nonempty digits).isLiteral
        have lastEq := List.getLast?_eq_some_getLast nonempty
        have frontWrites := Writes.number isWhole valueEq ends writes
        rw [List.append_nil] at frontWrites
        exact ⟨frontWrites, _, lastEq, digits _ (List.getLast_mem nonempty)⟩
      · rw [List.concat_eq_append] at textEq ends inductionHypothesis
        rw [← List.append_assoc] at textEq
        obtain ⟨rfl, rfl⟩ := List.append_singleton_inj.mp textEq
        obtain ⟨restWrites, digit, isLast, isDigit⟩ := inductionHypothesis rfl
        have nonempty : rest ≠ [] := by
          rintro rfl
          cases isLast
        have restEnds : EndsLiteral rest := by
          rw [EndsLiteral, List.head?_append_of_ne_nil _ nonempty] at ends
          exact ends
        refine ⟨.number isLiteral valueEq restEnds restWrites, digit, ?_, isDigit⟩
        rw [List.getLast?_append_of_ne_nil _ nonempty, isLast]

/-- A text that is read without a fault and ends in a point is read in the same
way without that point, and is finished then. -/
theorem ofText_and_isUnfinished_of_append_point {text shorter : Text} {tokens : List Token}
    (read : Token.ofText text = .ok tokens) (plainEq : plain text = plain shorter ++ ['.']) :
    Token.ofText shorter = .ok tokens ∧ isUnfinished shorter = false := by
  obtain ⟨writes, nonempty⟩ := Token.ofText_eq_ok_iff.mp read
  obtain ⟨shorterWrites, digit, isLast, isDigit⟩ := writes.of_append_point plainEq
  constructor
  · exact Token.ofText_eq_ok_iff.mpr ⟨shorterWrites, nonempty⟩
  · rw [isUnfinished, isLast]
    simp [isSymbol_eq_false_of_isLiteralChar (isLiteralChar_of_isDigit isDigit),
      ne_point_of_isDigit isDigit]

/-! ## Unfinished texts -/

/-- A text without anything to read or with an operator at its end has no value. -/
theorem exists_calculate_eq_error {text : Text}
    (waits : plain text = [] ∨
      ∃ operator, (plain text).getLast? = some (Operator.symbol operator)) :
    ∃ fault, calculate text = .error fault := by
  cases calculated : calculate text with
  | error fault => exact ⟨fault, rfl⟩
  | ok value =>
      have chain := isChain_of_calculate_eq_ok calculated
      rcases waits with isEmpty | ⟨operator, isLast⟩
      · exact absurd isEmpty chain.ne_nil
      · have isChar := chain.isLiteralChar_of_getLast? _ isLast
        rw [isLiteralChar_symbol] at isChar
        cases isChar

/-- An unfinished text with a value ends in a point. -/
theorem getLast?_of_isUnfinished {text : Text} {value : Float}
    (unfinished : isUnfinished text = true) (calculated : calculate text = .ok value) :
    (plain text).getLast? = some '.' := by
  have valued : ∀ fault, calculate text ≠ .error fault := by
    rw [calculated]
    nofun
  cases isLast : (plain text).getLast? with
  | none =>
      have isEmpty : plain text = [] := List.getLast?_eq_none_iff.mp isLast
      obtain ⟨fault, failed⟩ := exists_calculate_eq_error (.inl isEmpty)
      exact absurd failed (valued fault)
  | some c =>
      rw [isUnfinished, isLast] at unfinished
      simp only [Bool.or_eq_true, decide_eq_true_eq] at unfinished
      rcases unfinished with symbol | rfl
      · obtain ⟨operator, isOperator⟩ := Option.isSome_iff_exists.mp symbol
        rw [Operator.ofSymbol?_eq_some_iff.mp isOperator] at isLast
        obtain ⟨fault, failed⟩ := exists_calculate_eq_error (.inr ⟨operator, isLast⟩)
        exact absurd failed (valued fault)
      · rfl

/-- The values of finished texts are not hidden.  An unfinished text that has a
value nevertheless ends in a point, and the text without this point is finished
and has the same value. -/
theorem calculateFinished_hides_no_value (text : Text) :
    (isUnfinished text = false → calculateFinished text = calculate text) ∧
      ((plain text = [] ∨
          ∃ operator, (plain text).getLast? = some (Operator.symbol operator)) →
        ∃ fault, calculate text = .error fault) ∧
      (∀ value, isUnfinished text = true → calculate text = .ok value →
        (plain text).getLast? = some '.') ∧
      ∀ value, (plain text).getLast? = some '.' → calculate text = .ok value →
        ∃ front blanks, text = front ++ '.' :: blanks ∧ (∀ b ∈ blanks, isBlank b = true) ∧
          isUnfinished (front ++ blanks) = false ∧
          calculateFinished (front ++ blanks) = .ok value := by
  constructor
  · exact calculateFinished_of_not_isUnfinished
  constructor
  · exact exists_calculate_eq_error
  constructor
  · exact fun value unfinished calculated => getLast?_of_isUnfinished unfinished calculated
  · intro value isLast calculated
    obtain ⟨front, d, blanks, rfl, pointEq, visible, blank⟩ := exists_last_of_plain isLast
    have isPoint := (plainChar_eq_iff isLiteralChar_point).mp pointEq
    subst d
    have plainEq : plain (front ++ '.' :: blanks) = plain (front ++ blanks) ++ ['.'] := by
      have split : front ++ '.' :: blanks = front ++ ['.'] ++ blanks := by simp
      rw [split, plain_append_of_isBlank _ blank, plain_append_of_isBlank _ blank,
        plain_concat front visible]
      rfl
    obtain ⟨tokens, read, valueEq⟩ := calculate_eq_ok_iff.mp calculated
    obtain ⟨shorterRead, finished⟩ := ofText_and_isUnfinished_of_append_point read plainEq
    have shorterCalculated := calculate_eq_ok_iff.mpr ⟨tokens, shorterRead, valueEq⟩
    exact ⟨front, blanks, rfl, blank, finished,
      calculateFinished_eq_ok_iff.mpr ⟨finished, shorterCalculated⟩⟩

/-- The value of a product is hidden behind a point and a blank, but a product
without its last operand has none. -/
theorem calculateFinished_hides_no_value_of_product :
    (isUnfinished "2×3. ".toList = true ∧ calculate "2×3. ".toList = .ok 6 ∧
        (plain "2×3. ".toList).getLast? = some '.' ∧
        ∃ front blanks, "2×3. ".toList = front ++ '.' :: blanks ∧
          (∀ b ∈ blanks, isBlank b = true) ∧ isUnfinished (front ++ blanks) = false ∧
          calculateFinished (front ++ blanks) = .ok 6) ∧
      (isUnfinished "2×3".toList = false ∧
        calculateFinished "2×3".toList = calculate "2×3".toList) ∧
      (plain "2×−".toList).getLast? = some Operator.minus.symbol ∧
      ∃ fault, calculate "2×−".toList = .error fault := by
  have unfinished : isUnfinished "2×3. ".toList = true := by decide +kernel
  have calculated : calculate "2×3. ".toList = .ok 6 := by decide +kernel
  have finished : isUnfinished "2×3".toList = false := by decide +kernel
  have isLast := (calculateFinished_hides_no_value _).2.2.1 _ unfinished calculated
  constructor
  · exact ⟨unfinished, calculated, isLast,
      (calculateFinished_hides_no_value _).2.2.2 _ isLast calculated⟩
  constructor
  · exact ⟨finished, (calculateFinished_hides_no_value _).1 finished⟩
  · exact ⟨rfl, (calculateFinished_hides_no_value _).2.1 (.inr ⟨.minus, rfl⟩)⟩

end AmountPad
