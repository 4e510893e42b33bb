import Mathlib.Data.List.SplitBy
import AmountPad.Proofs.Token.Writing

/-!
# Reading segment by segment

A text is cut into its longest runs of digits and points and all other
characters singly.  Each segment reads as one token or as one fault, whatever
stands around it, and the items of a text are what its segments read as, up to
the first fault.  Two numbers never follow each other, because two runs never do.
-/

namespace AmountPad

/-! ## Cutting a text -/

/-- A run, or a character that no literal holds. -/
inductive IsSegment : Text → Prop where
  | run {text} : IsRun text → IsSegment text
  | other {c} : isLiteralChar c = false → IsSegment [c]

/-- A text is cut into segments, and no run goes on behind its segment. -/
inductive IsCut : Text → List Text → Prop where
  | nil : IsCut [] []
  | cons {segment rest later} :
      IsSegment segment → (IsRun segment → EndsLiteral rest) → IsCut rest later →
        IsCut (segment ++ rest) (segment :: later)

theorem segments_other_cons {c : Char} (other : isLiteralChar c = false) (rest : Text) :
    segments (c :: rest) = [c] :: segments rest := by
  have apart : ∀ last ∈ [c].getLast?, ∀ next ∈ rest.head?,
      (isLiteralChar last && isLiteralChar next) = false := by
    simp [other]
  exact List.splitBy_append apart

theorem segments_run_append {run rest : Text} (isRun : IsRun run) (ends : EndsLiteral rest) :
    segments (run ++ rest) = run :: segments rest := by
  have apart : ∀ last ∈ run.getLast?, ∀ next ∈ rest.head?,
      (isLiteralChar last && isLiteralChar next) = false := by
    intro last _ next isHead
    rw [ends next isHead, Bool.and_false]
  have joined : run.IsChain fun c d => isLiteralChar c && isLiteralChar d := by
    apply List.Pairwise.isChain
    apply List.pairwise_of_forall_mem_list
    intro c first d second
    rw [isRun.chars c first, isRun.chars d second]
    rfl
  rw [segments, List.splitBy_append apart, List.splitBy_of_isChain isRun.ne_nil joined]
  rfl

theorem not_isRun_of_isLiteralChar_eq_false {c : Char} (other : isLiteralChar c = false) :
    ¬ IsRun [c] := by
  intro isRun
  rw [isRun.chars c List.mem_cons_self] at other
  cases other

theorem IsSegment.ne_nil {segment : Text} (isSegment : IsSegment segment) : segment ≠ [] := by
  cases isSegment with
  | run isRun => exact isRun.ne_nil
  | other _ => exact List.cons_ne_nil _ _

/-- The first segment of a text, with what is left of the text. -/
theorem exists_first_segment {text : Text} (nonempty : text ≠ []) :
    ∃ segment rest, text = segment ++ rest ∧ rest.length < text.length ∧
      IsSegment segment ∧ (IsRun segment → EndsLiteral rest) ∧
      segments text = segment :: segments rest := by
  cases text with
  | nil => exact absurd rfl nonempty
  | cons c tail =>
      cases isChar : isLiteralChar c with
      | false =>
          refine ⟨[c], tail, rfl, by simp, .other isChar, ?_, segments_other_cons isChar tail⟩
          exact fun isRun => absurd isRun (not_isRun_of_isLiteralChar_eq_false isChar)
      | true =>
          have isRun := isRun_cons_takeWhile isChar tail
          have ends := endsLiteral_dropWhile tail
          have whole : c :: tail =
              (c :: tail.takeWhile isLiteralChar) ++ tail.dropWhile isLiteralChar := by
            rw [List.cons_append, List.takeWhile_append_dropWhile]
          have shorter := (List.dropWhile_suffix (l := tail) isLiteralChar).length_le
          refine ⟨_, _, whole, ?_, .run isRun, fun _ => ends, ?_⟩
          · rw [List.length_cons]
            omega
          · rw [whole]
            exact segments_run_append isRun ends

/-- The segments of a text are a cut of it. -/
theorem isCut_segments (text : Text) : IsCut text (segments text) := by
  induction bound : text.length using Nat.strong_induction_on generalizing text with
  | _ length inductionHypothesis =>
      by_cases isEmpty : text = []
      · subst isEmpty
        exact .nil
      · obtain ⟨segment, rest, rfl, shorter, isSegment, ends, segmentsEq⟩ :=
          exists_first_segment isEmpty
        rw [segmentsEq]
        exact .cons isSegment ends (inductionHypothesis _ (bound ▸ shorter) rest rfl)

theorem IsCut.flatten_eq {text : Text} {cut : List Text} (isCut : IsCut text cut) :
    cut.flatten = text := by
  induction isCut with
  | nil => rfl
  | cons _ _ _ inductionHypothesis => rw [List.flatten_cons, inductionHypothesis]

theorem IsCut.isSegment {text : Text} {cut : List Text} (isCut : IsCut text cut) :
    ∀ segment ∈ cut, IsSegment segment := by
  induction isCut with
  | nil => simp
  | cons isSegment _ _ inductionHypothesis =>
      rw [List.forall_mem_cons]
      exact ⟨isSegment, inductionHypothesis⟩

theorem IsRun.not_endsLiteral_append {run : Text} (isRun : IsRun run) (rest : Text) :
    ¬ EndsLiteral (run ++ rest) := by
  intro ends
  cases run with
  | nil => exact absurd rfl isRun.ne_nil
  | cons c tail =>
      have isChar := isRun.chars c List.mem_cons_self
      rw [ends c rfl] at isChar
      cases isChar

/-- No two runs of a cut are neighbours. -/
theorem IsCut.isChain {text : Text} {cut : List Text} (isCut : IsCut text cut) :
    cut.IsChain fun first second => ¬ (IsRun first ∧ IsRun second) := by
  induction isCut with
  | nil => exact .nil
  | @cons segment rest later _ ends isCut inductionHypothesis =>
      cases isCut with
      | nil => exact .singleton _
      | @cons second others _ _ _ _ =>
          refine .cons_cons ?_ inductionHypothesis
          rintro ⟨firstRun, secondRun⟩
          exact secondRun.not_endsLiteral_append others (ends firstRun)

/-! ## Reading a segment -/

/-- A run without a digit that has one point at most is a point. -/
theorem IsRun.eq_point {run : Text} (isRun : IsRun run) (onePoint : run.count '.' ≤ 1)
    (noDigit : ∀ c ∈ run, c.isDigit = false) : run = ['.'] := by
  have points : ∀ c ∈ run, c = '.' := by
    intro c member
    rcases isLiteralChar_iff.mp (isRun.chars c member) with isDigit | isPoint
    · rw [noDigit c member] at isDigit
      cases isDigit
    · exact isPoint
  have allPoints : run = List.replicate run.length '.' := List.eq_replicate_of_mem points
  have positive : 0 < run.length := List.length_pos_of_ne_nil isRun.ne_nil
  rw [allPoints, List.count_replicate_self] at onePoint
  rw [allPoints, Nat.le_antisymm onePoint positive]
  rfl

namespace Token

/-- What a run reads as depends on the points, then on the digits, then on the value. -/
theorem reads_iff_of_isRun {run : Text} {item : Except ReadingFault Token}
    (isRun : IsRun run) : Reads run item ↔ ofLiteral run = item := by
  constructor
  · intro reads
    cases reads with
    | operator operator =>
        have isChar := isRun.chars operator.symbol List.mem_cons_self
        rw [isLiteralChar_symbol] at isChar
        cases isChar
    | number isLiteral valueEq => rw [ofLiteral_of_isLiteral isLiteral, valueEq]
    | tooLarge isLiteral valueEq => rw [ofLiteral_of_isLiteral isLiteral, valueEq]
    | lonePoint => rfl
    | extraPoint _ points => exact if_pos points
    | unexpected other _ => exact absurd isRun (not_isRun_of_isLiteralChar_eq_false other)
  · rintro rfl
    unfold ofLiteral
    split
    · rename_i points
      exact .extraPoint isRun.chars points
    · rename_i onePoint
      split
      · rename_i noDigit
        rw [isRun.eq_point (Nat.le_of_not_lt onePoint) (by simpa using noDigit)]
        exact .lonePoint
      · rename_i someDigit
        have isLiteral : IsLiteral run :=
          ⟨isRun.chars, Nat.le_of_not_lt onePoint, by simpa using someDigit⟩
        split
        · rename_i value valueEq
          exact .number isLiteral valueEq
        · rename_i valueEq
          exact .tooLarge isLiteral valueEq

/-- A character that no literal holds is an operator symbol or unexpected. -/
theorem reads_iff_of_other {c : Char} {item : Except ReadingFault Token}
    (other : isLiteralChar c = false) :
    Reads [c] item ↔
      ((Operator.ofSymbol? c).elim (.error (.unexpectedChar c)) fun operator =>
        .ok (.operator operator)) = item := by
  constructor
  · intro reads
    have noRun := not_isRun_of_isLiteralChar_eq_false other
    cases reads with
    | operator operator => rw [Operator.ofSymbol?_symbol, Option.elim_some]
    | number isLiteral _ => exact absurd isLiteral.isRun noRun
    | tooLarge isLiteral _ => exact absurd isLiteral.isRun noRun
    | lonePoint => cases other
    | extraPoint chars _ => exact absurd ⟨List.cons_ne_nil _ _, chars⟩ noRun
    | unexpected _ noSymbol => rw [noSymbol, Option.elim_none]
  · rintro rfl
    cases read : Operator.ofSymbol? c with
    | none => exact .unexpected other read
    | some operator =>
        rw [Operator.ofSymbol?_eq_some_iff.mp read]
        exact .operator operator

/-- Every segment reads as one token or as one fault. -/
theorem existsUnique_reads {segment : Text} (isSegment : IsSegment segment) :
    ∃! item, Reads segment item := by
  cases isSegment with
  | run isRun => exact ⟨_, (reads_iff_of_isRun isRun).mpr rfl, fun _ reads =>
      ((reads_iff_of_isRun isRun).mp reads).symm⟩
  | other other => exact ⟨_, (reads_iff_of_other other).mpr rfl, fun _ reads =>
      ((reads_iff_of_other other).mp reads).symm⟩

/-- A segment is read as a whole, and nothing is read behind a fault. -/
theorem next?_of_reads {segment rest : Text} {item : Except ReadingFault Token}
    (isSegment : IsSegment segment) (ends : IsRun segment → EndsLiteral rest)
    (reads : Reads segment item) :
    next? (segment ++ rest) = some (item, if item.isOk then rest else []) := by
  cases isSegment with
  | run isRun =>
      rw [next?_run isRun (ends isRun), (reads_iff_of_isRun isRun).mp reads]
      cases item <;> rfl
  | @other c other =>
      rw [← (reads_iff_of_other other).mp reads, List.singleton_append, next?]
      cases Operator.ofSymbol? c with
      | none =>
          simp only [other]
          rfl
      | some operator => rfl

/-! ## Reading a text -/

/-- The items of a text are what its segments read as, up to the first fault. -/
theorem readAll_of_isCut {text : Text} {cut : List Text}
    {items : List (Except ReadingFault Token)} (isCut : IsCut text cut)
    (reads : List.Forall₂ Reads cut items) : readAll text = throughFault items := by
  induction isCut generalizing items with
  | nil =>
      cases reads
      exact readAll_nil
  | cons isSegment ends _ inductionHypothesis =>
      cases reads with
      | @cons _ item _ items reads laterReads =>
          have next := next?_of_reads isSegment ends reads
          rw [readAll_of_next? next]
          cases item with
          | ok token => exact congrArg _ (inductionHypothesis laterReads)
          | error fault => exact congrArg _ readAll_nil

/-- The segments of a cut can all be read. -/
theorem exists_reads {cut : List Text} (areSegments : ∀ segment ∈ cut, IsSegment segment) :
    ∃ items, List.Forall₂ Reads cut items := by
  induction cut with
  | nil => exact ⟨[], .nil⟩
  | cons segment cut inductionHypothesis =>
      rw [List.forall_mem_cons] at areSegments
      obtain ⟨item, reads, _⟩ := existsUnique_reads areSegments.1
      obtain ⟨items, laterReads⟩ := inductionHypothesis areSegments.2
      exact ⟨item :: items, .cons reads laterReads⟩

/-- Every item takes at least one character. -/
theorem length_readAll_le (text : Text) : (readAll text).length ≤ text.length := by
  fun_induction readAll text with
  | case1 text read => exact Nat.zero_le _
  | case2 text item rest read shorter inductionHypothesis =>
      rw [List.length_cons]
      omega

theorem exists_readAll_eq_throughFault (text : Text) :
    ∃ items, readAll text = throughFault items := by
  have isCut := isCut_segments text
  obtain ⟨items, reads⟩ := exists_reads isCut.isSegment
  exact ⟨items, readAll_of_isCut isCut reads⟩

/-- There is no item behind one that is not a token. -/
theorem getElem?_throughFault_eq_none {items : List (Except ReadingFault Token)}
    {earlier later : Nat} (inOrder : earlier < later)
    (noToken : ∀ token, (throughFault items)[earlier]? ≠ some (.ok token)) :
    (throughFault items)[later]? = none := by
  induction items generalizing earlier later with
  | nil => rfl
  | cons item items inductionHypothesis =>
      cases later with
      | zero => omega
      | succ later =>
          cases item with
          | error fault => rfl
          | ok token =>
              cases earlier with
              | zero => exact absurd rfl (noToken token)
              | succ earlier => exact inductionHypothesis (Nat.lt_of_succ_lt_succ inOrder) noToken

theorem throughFault_tokens_append (tokens : List Token)
    (items : List (Except ReadingFault Token)) :
    throughFault (tokens.map .ok ++ items) = tokens.map .ok ++ throughFault items := by
  induction tokens with
  | nil => rfl
  | cons token tokens inductionHypothesis =>
      rw [List.map_cons, List.cons_append, throughFault, inductionHypothesis, List.cons_append]

/-- The end of a list whose front is read without a fault. -/
theorem readAll_of_reads_append {text : Text} {before after : List Text} {tokens : List Token}
    {items : List (Except ReadingFault Token)} (isCut : IsCut text (before ++ after))
    (good : List.Forall₂ (fun segment token => Reads segment (.ok token)) before tokens)
    (reads : List.Forall₂ Reads after items) :
    readAll text = tokens.map .ok ++ throughFault items := by
  have frontReads : List.Forall₂ Reads before (tokens.map .ok) :=
    List.forall₂_map_right_iff.mpr good
  rw [readAll_of_isCut isCut (List.rel_append frontReads reads), throughFault_tokens_append]

/-- No number is directly behind a number. -/
theorem Writes.ne_numbers {text : Text} {tokens : List Token} (writes : Writes text tokens)
    (before later : List Token) (x y : Float) :
    tokens ≠ before ++ .number x :: .number y :: later := by
  induction writes generalizing before with
  | nil => simp
  | operator operator _ inductionHypothesis =>
      intro equal
      cases before with
      | nil => cases equal
      | cons token before => exact inductionHypothesis before (List.cons.inj equal).2
  | number _ _ ends writes inductionHypothesis =>
      intro equal
      cases before with
      | nil =>
          cases equal
          cases writes with
          | @number _ _ rest _ isLiteral _ _ _ =>
              exact isLiteral.isRun.not_endsLiteral_append rest ends
      | cons token before => exact inductionHypothesis before (List.cons.inj equal).2

/-- A text is read segment by segment.  The segments are its longest runs of
digits and points and all other characters singly, and each reads as one token
or as one fault.  A text without segments is refused; if all segments read as
tokens, these are the tokens of the text; otherwise the first fault is the
answer, and the items are the tokens before it and the fault.  Two numbers are
never neighbours. -/
theorem ofText_eq_of_segments (text : Text) :
    let cut := segments (plain text)
    (cut.flatten = plain text ∧ (∀ segment ∈ cut, IsSegment segment) ∧
        cut.IsChain fun first second => ¬ (IsRun first ∧ IsRun second)) ∧
      (∀ segment ∈ cut, ∃! item, Reads segment item) ∧
      (plain text = [] → ofText text = .error .emptyText ∧ readAll (plain text) = []) ∧
      (∀ tokens, plain text ≠ [] →
        List.Forall₂ (fun segment token => Reads segment (.ok token)) cut tokens →
          ofText text = .ok tokens ∧ readAll (plain text) = tokens.map .ok) ∧
      (∀ before segment later tokens fault, cut = before ++ segment :: later →
        List.Forall₂ (fun segment token => Reads segment (.ok token)) before tokens →
        Reads segment (.error fault) →
          ofText text = .error fault ∧
            readAll (plain text) = tokens.map .ok ++ [.error fault]) ∧
      ∀ tokens before later x y, ofText text = .ok tokens →
        tokens ≠ before ++ .number x :: .number y :: later := by
  intro cut
  have isCut : IsCut (plain text) cut := isCut_segments (plain text)
  refine ⟨⟨isCut.flatten_eq, isCut.isSegment, isCut.isChain⟩, ?_, ?_, ?_, ?_, ?_⟩
  · exact fun segment member => existsUnique_reads (isCut.isSegment segment member)
  · intro isEmpty
    rw [ofText, if_pos isEmpty, isEmpty]
    exact ⟨rfl, readAll_nil⟩
  · intro tokens nonempty good
    have whole : IsCut (plain text) (cut ++ []) := by
      rw [List.append_nil]
      exact isCut
    have read := readAll_of_reads_append whole good .nil
    rw [ofText_of_readAll nonempty read, read]
    simp [throughFault, Except.map, pure, Except.pure]
  · intro before segment later tokens fault cutEq good reads
    have parted : IsCut (plain text) (before ++ segment :: later) := cutEq ▸ isCut
    have nonempty : plain text ≠ [] := by
      intro isEmpty
      have noCut : cut = [] := congrArg segments isEmpty
      rw [cutEq] at noCut
      simp at noCut
    obtain ⟨items, laterReads⟩ := exists_reads fun other member =>
      parted.isSegment other (List.mem_append_right before (List.mem_cons_of_mem segment member))
    have read := readAll_of_reads_append parted good (.cons reads laterReads)
    rw [ofText_of_readAll nonempty read, read]
    exact ⟨rfl, rfl⟩
  · intro tokens before later x y read
    exact (ofText_eq_ok_iff.mp read).1.ne_numbers before later x y

/-- A blank inside a number does not end it, and nothing is read behind an
unexpected character.  Without the character and what follows it, the text has
two numbers that are parted by an operator. -/
theorem ofText_eq_of_segments_of_product :
    let faulty := "1 .5×-.2x..".toList
    let good := "1 .5×-.2".toList
    (segments (plain faulty) =
        ["1.5".toList, ['*'], ['-'], ".2".toList] ++ ['x'] :: ["..".toList] ∧
      ofText faulty = .error (.unexpectedChar 'x') ∧
      readAll (plain faulty) =
        [.number 1.5, .operator .times, .operator .minus, .number 0.2].map .ok ++
          [.error (.unexpectedChar 'x')]) ∧
      (plain good ≠ [] ∧
        ofText good =
          .ok [.number 1.5, .operator .times, .operator .minus, .number 0.2]) ∧
      plain " ".toList = [] ∧ ofText " ".toList = .error .emptyText := by
  intro faulty good
  have reads : List.Forall₂ (fun segment token => Reads segment (.ok token))
      ["1.5".toList, ['*'], ['-'], ".2".toList]
      [.number 1.5, .operator .times, .operator .minus, .number 0.2] :=
    .cons (.number (by decide) (by decide +kernel)) <| .cons (.operator .times) <|
      .cons (.operator .minus) <| .cons (.number (by decide) (by decide +kernel)) .nil
  have unexpected : Reads ['x'] (.error (.unexpectedChar 'x')) :=
    .unexpected (by decide) (by decide)
  have faultyCut : segments (plain faulty) =
      ["1.5".toList, ['*'], ['-'], ".2".toList] ++ ['x'] :: ["..".toList] := by
    decide
  have goodCut : segments (plain good) = ["1.5".toList, ['*'], ['-'], ".2".toList] := by
    decide
  have nonempty : plain good ≠ [] := by decide
  have isEmpty : plain " ".toList = [] := by decide
  obtain ⟨_, _, _, _, ofFault, _⟩ := ofText_eq_of_segments faulty
  obtain ⟨_, _, _, ofTokens, _, _⟩ := ofText_eq_of_segments good
  obtain ⟨_, _, ofEmpty, _, _, _⟩ := ofText_eq_of_segments " ".toList
  constructor
  · exact ⟨faultyCut, ofFault _ _ _ _ _ faultyCut reads unexpected⟩
  constructor
  · rw [goodCut] at ofTokens
    exact ⟨nonempty, (ofTokens _ nonempty reads).1⟩
  · exact ⟨isEmpty, (ofEmpty isEmpty).1⟩

end Token

end AmountPad
