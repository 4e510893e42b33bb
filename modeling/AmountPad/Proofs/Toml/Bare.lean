import AmountPad.Proofs.Decimal.Fixed
import AmountPad.Proofs.Toml.Quoted

/-!
# Reading a scalar

A boolean or an integer is the longest run of bare characters in front of a line end, and a
text ends in its closing quote.  So a scalar that is written in front of a line end, or at
the end of a document, is read back.
-/

namespace AmountPad.Toml

/-! ## Integers -/

section Grouped

variable {digits written : Text} (isGrouped : IsGrouped digits written)

include isGrouped

theorem IsGrouped.exists_cons : ∃ c others, written = c :: others ∧ c.isDigit = true := by
  cases isGrouped with
  | last isDigit => exact ⟨_, _, rfl, isDigit⟩
  | next isDigit => exact ⟨_, _, rfl, isDigit⟩
  | group isDigit => exact ⟨_, _, rfl, isDigit⟩

theorem IsGrouped.isDigit_or_eq :
    ∀ c ∈ written, c.isDigit = true ∨ c = '_' := by
  induction isGrouped with
  | last isDigit => simpa using .inl isDigit
  | next isDigit _ inductionHypothesis =>
      exact List.forall_mem_cons.mpr ⟨.inl isDigit, inductionHypothesis⟩
  | group isDigit _ inductionHypothesis =>
      exact List.forall_mem_cons.mpr
        ⟨.inl isDigit, List.forall_mem_cons.mpr ⟨.inr rfl, inductionHypothesis⟩⟩

/-- Taking out the underscores leaves the digits. -/
theorem IsGrouped.ungroup?_eq (afterDigit : Bool) :
    ungroup? Char.isDigit afterDigit written = some digits := by
  have digitStep {c : Char} (isDigit : c.isDigit = true) (afterDigit : Bool) (rest : Text) :
      ungroup? Char.isDigit afterDigit (c :: rest) =
        (ungroup? Char.isDigit true rest).map (c :: ·) := by
    have notGroup : c ≠ '_' := by
      rintro rfl
      cases isDigit
    rw [ungroup?, if_neg notGroup, if_pos isDigit]
  induction isGrouped generalizing afterDigit with
  | last isDigit => exact digitStep isDigit afterDigit []
  | next isDigit _ inductionHypothesis =>
      rw [digitStep isDigit, inductionHypothesis]
      rfl
  | group isDigit _ inductionHypothesis =>
      rw [digitStep isDigit, ungroup?, if_pos rfl, if_pos rfl, inductionHypothesis]
      rfl

theorem IsGrouped.cutSign_eq : cutSign written = (false, written) := by
  obtain ⟨c, others, rfl, isDigit⟩ := isGrouped.exists_cons
  have noSign : c ≠ '-' ∧ c ≠ '+' := by
    constructor <;> rintro rfl <;> cases isDigit
  simp [cutSign, noSign.1, noSign.2]

end Grouped

theorem wholeDigits?_of_isGrouped {number : Nat} {written : Text}
    (isGrouped : IsGrouped (Nat.toDigits 10 number) written) :
    wholeDigits? written = some (Nat.toDigits 10 number) := by
  rw [wholeDigits?, isGrouped.ungroup?_eq]
  split
  · rename_i _ second rest digitsEq
    -- a zero in front of other digits
    rw [Option.some.injEq] at digitsEq
    rcases Nat.eq_zero_or_pos number with rfl | positive
    · cases digitsEq
    · have front := Decimal.head?_toDigits_ne positive
      rw [digitsEq] at front
      exact absurd rfl front
  · rfl

/-- Without the letter of a base, an integer is in base ten. -/
theorem integer?_of_notMem {text : Text} (noBase : ∀ c ∈ ['x', 'o', 'b'], c ∉ text) :
    integer? text = (wholeDigits? (cutSign text).2).map fun digits =>
      if (cutSign text).1 then -Int.ofNat (Nat.ofDigitChars 10 digits 0)
      else Int.ofNat (Nat.ofDigitChars 10 digits 0) := by
  rw [integer?]
  · rintro digits rfl
    exact noBase 'x' (by simp) (by simp)
  · rintro digits rfl
    exact noBase 'o' (by simp) (by simp)
  · rintro digits rfl
    exact noBase 'b' (by simp) (by simp)

section Decimals

variable {number : Int} {written : Text} (isDecimal : IsDecimal number written)

include isDecimal

/-- The characters of an integer in base ten. -/
theorem IsDecimal.isDigit_or_mem :
    ∀ c ∈ written, c.isDigit = true ∨ c ∈ ['_', '+', '-'] := by
  have grouped {digits written : Text} (isGrouped : IsGrouped digits written) :
      ∀ c ∈ written, c.isDigit = true ∨ c ∈ ['_', '+', '-'] := by
    intro c member
    refine (isGrouped.isDigit_or_eq c member).imp_right ?_
    rintro rfl
    exact List.mem_cons_self
  cases isDecimal with
  | unsigned isGrouped => exact grouped isGrouped
  | plus isGrouped => exact List.forall_mem_cons.mpr ⟨.inr (by simp), grouped isGrouped⟩
  | minus isGrouped => exact List.forall_mem_cons.mpr ⟨.inr (by simp), grouped isGrouped⟩

theorem IsDecimal.isBareChar : ∀ c ∈ written, isBareChar c = true := by
  intro c member
  rcases isDecimal.isDigit_or_mem c member with isDigit | isMark
  · simp [Toml.isBareChar, Char.isAlphanum, isDigit]
  · simp only [List.mem_cons, List.not_mem_nil, or_false] at isMark
    rcases isMark with rfl | rfl | rfl <;> decide

/-- No other character stands in an integer in base ten. -/
theorem IsDecimal.notMem {c : Char} (notDigit : c.isDigit = false)
    (notMark : c ∉ ['_', '+', '-']) : c ∉ written := by
  intro member
  rcases isDecimal.isDigit_or_mem c member with isDigit | isMark
  · rw [notDigit] at isDigit
    cases isDigit
  · exact notMark isMark

theorem IsDecimal.ne_nil : written ≠ [] := by
  cases isDecimal with
  | unsigned isGrouped =>
      obtain ⟨c, others, rfl, _⟩ := isGrouped.exists_cons
      exact List.cons_ne_nil c others
  | plus => exact List.cons_ne_nil _ _
  | minus => exact List.cons_ne_nil _ _

/-- The digits of an integer tell its magnitude, and what is in front of them its sign. -/
theorem IsDecimal.integer?_eq : integer? written = some number := by
  have noBase : ∀ c ∈ ['x', 'o', 'b'], c ∉ written := by
    intro c isBase
    simp only [List.mem_cons, List.not_mem_nil, or_false] at isBase
    rcases isBase with rfl | rfl | rfl <;> exact isDecimal.notMem (by decide) (by decide)
  rw [integer?_of_notMem noBase]
  cases isDecimal with
  | unsigned isGrouped =>
      rw [isGrouped.cutSign_eq, wholeDigits?_of_isGrouped isGrouped]
      simp
  | plus isGrouped =>
      rw [cutSign, wholeDigits?_of_isGrouped isGrouped]
      simp
  | minus isGrouped =>
      rw [cutSign, wholeDigits?_of_isGrouped isGrouped]
      simp

theorem IsDecimal.ofBare?_eq (low : -0x8000000000000000 ≤ number)
    (high : number ≤ 0x7FFFFFFFFFFFFFFF) : ofBare? written = some (.integer number) := by
  have noLetter : 'e' ∉ written := isDecimal.notMem (by decide) (by decide)
  have notTrue : written ≠ "true".toList := by
    rintro rfl
    exact noLetter (by simp)
  have notFalse : written ≠ "false".toList := by
    rintro rfl
    exact noLetter (by simp)
  have fits : fitsInteger number = true := by
    simp only [fitsInteger, Bool.and_eq_true, decide_eq_true_eq]
    omega
  rw [ofBare?, if_neg notTrue, if_neg notFalse, isDecimal.integer?_eq]
  simp [fits]

end Decimals

/-! ## Runs of bare characters -/

section Runs

variable {run rest : Text} (areBare : ∀ c ∈ run, isBareChar c = true)
  (ends : ∀ c ∈ rest.head?, isLineEndChar c = true)

include ends

theorem startsTime_eq_false : startsTime rest = false := by
  unfold startsTime
  split
  · cases ends ' ' rfl
  · rfl

include areBare

/-- A run of bare characters in front of a line end is read as a whole. -/
theorem bare?_append : bare? (run ++ rest) = (ofBare? run).map (·, rest) := by
  have stops : ∀ c ∈ rest.head?, isBareChar c = false := by
    intro c isFirst
    have isEnd := ends c isFirst
    rw [isLineEndChar, Bool.or_eq_true, decide_eq_true_eq, decide_eq_true_eq] at isEnd
    rcases isEnd with rfl | rfl <;> decide
  simp only [bare?, takeWhile_append_of_ends areBare stops,
    dropWhile_append_of_ends areBare stops, startsTime_eq_false ends, Bool.and_false,
    Bool.false_eq_true, if_false]

end Runs

/-! ## Scalars -/

/-- No spelling of a text starts with the quote that closes it. -/
theorem IsEscaped.head?_ne {text raw : Text} (escaped : IsEscaped text raw) :
    raw.head? ≠ some '"' := by
  cases escaped with
  | nil => simp
  | cons spells _ =>
      cases spells with
      | self _ notQuote _ => simpa using notQuote
      | letter => simp
      | shortCode => simp
      | longCode => simp

/-- One quote starts a text on one line. -/
theorem simple?_quote {text : Text} (single : ∀ more, text ≠ '"' :: '"' :: more) :
    simple? ('"' :: text) = (basicLine? text).map fun (text, rest) => (.string text, rest) := by
  rw [simple?]
  exact single

/-- Without quotes in front a value is bare. -/
theorem simple?_of_ne {first : Char} {text : Text} (notDouble : first ≠ '"')
    (notSingle : first ≠ '\'') : simple? (first :: text) = bare? (first :: text) := by
  simp [simple?, notDouble, notSingle]

section Scalars

variable {rest : Text} (ends : ∀ c ∈ rest.head?, isLineEndChar c = true)

include ends

theorem IsEscaped.simple?_eq {text raw : Text} (escaped : IsEscaped text raw) :
    simple? ('"' :: raw ++ ['"'] ++ rest) = some (.string text, rest) := by
  have single : ∀ more, raw ++ '"' :: rest ≠ '"' :: '"' :: more := by
    intro more same
    cases raw with
    | nil =>
        rw [List.nil_append, List.cons_inj_right] at same
        cases ends '"' (by rw [same]; rfl)
    | cons c raw =>
        have front := escaped.head?_ne
        rw [List.cons_append, List.cons.injEq] at same
        rw [same.1] at front
        exact front rfl
  rw [List.append_assoc, List.singleton_append, List.cons_append, simple?_quote single,
    escaped.basicLine?_eq]
  rfl

theorem simple?_bare_append {run : Text} (nonempty : run ≠ [])
    (areBare : ∀ c ∈ run, isBareChar c = true) :
    simple? (run ++ rest) = (ofBare? run).map (·, rest) := by
  obtain ⟨first, others, rfl⟩ := List.exists_cons_of_ne_nil nonempty
  have isBare := areBare first List.mem_cons_self
  have notQuote : first ≠ '"' ∧ first ≠ '\'' := by
    constructor <;> rintro rfl <;> cases isBare
  rw [← bare?_append areBare ends, List.cons_append, simple?_of_ne notQuote.1 notQuote.2]

/-- A scalar in front of a line end is read back. -/
theorem Scalar.IsWritten.simple?_eq {value : Scalar} {written : Text}
    (isWritten : value.IsWritten written) :
    simple? (written ++ rest) = some (value.toValue, rest) := by
  cases isWritten with
  | string escaped => exact escaped.simple?_eq ends
  | boolean flag =>
      have areBare : ∀ c ∈ (if flag then "true" else "false").toList, isBareChar c = true :=
        List.all_eq_true.mp (by cases flag <;> rfl)
      rw [simple?_bare_append ends (by cases flag <;> simp) areBare]
      cases flag <;> rfl
  | integer low high isDecimal =>
      rw [simple?_bare_append ends isDecimal.ne_nil isDecimal.isBareChar,
        isDecimal.ofBare?_eq low high]
      rfl

end Scalars

end AmountPad.Toml
