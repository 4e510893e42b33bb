import AmountPad.Proofs.Token.Segments
import AmountPad.Token.Cursor

/-!
# Reading by bytes reads by characters

A cursor starts at the first byte of a string and stays between two characters: an operator
symbol and a character of a literal take one byte each, so a number of such characters is a
number of bytes as well, and after a fault the cursor is at the end.  No cut fails, therefore,
and the calls of a cursor answer with the items of its text, one by one.
-/

namespace AmountPad

/-! ## Bytes and characters -/

/-- Between the ends of two fronts of a string stands what the longer one adds. -/
theorem textBetween_append (before middle after : String) :
    textBetween (before ++ middle ++ after) before.rawEndPos (before ++ middle).rawEndPos =
      .ok middle.toList := by
  have firstValid : before.rawEndPos.IsValid (before ++ middle ++ after) :=
    String.Pos.Raw.isValid_iff_exists_append.mpr ⟨before, middle ++ after, String.append_assoc, rfl⟩
  have lastValid : (before ++ middle).rawEndPos.IsValid (before ++ middle ++ after) :=
    String.Pos.Raw.isValid_rawEndPos.append_right after
  have inOrder : before.rawEndPos ≤ (before ++ middle).rawEndPos := by
    simp [String.Pos.Raw.le_iff]
  rw [textBetween, dif_pos ⟨firstValid, lastValid, inOrder⟩]
  apply congrArg
  apply congrArg
  apply String.toByteArray_inj.mp
  have bytes := @ByteArray.extract_append_size_add' before.toByteArray
    (middle.toByteArray ++ after.toByteArray) 0 middle.utf8ByteSize before.utf8ByteSize
    String.size_toByteArray.symm
  rw [ByteArray.extract_append_eq_left String.size_toByteArray.symm] at bytes
  simpa [ByteArray.append_assoc] using bytes

theorem utf8Size_of_isLiteralChar {c : Char} (isChar : isLiteralChar c = true) :
    c.utf8Size = 1 := by
  rw [Char.utf8Size_eq_one_iff]
  rcases isLiteralChar_iff.mp isChar with isDigit | rfl
  · rw [Char.isDigit, Bool.and_eq_true, decide_eq_true_eq, decide_eq_true_eq] at isDigit
    exact UInt32.le_trans isDigit.2 (by decide)
  · decide

/-- A run has as many bytes as characters. -/
theorem utf8ByteSize_ofList_of_isLiteralChar {run : Text}
    (chars : ∀ c ∈ run, isLiteralChar c = true) :
    (String.ofList run).utf8ByteSize = run.length := by
  induction run with
  | nil => rw [String.ofList_nil, String.utf8ByteSize_empty, List.length_nil]
  | cons c run inductionHypothesis =>
      rw [List.forall_mem_cons] at chars
      rw [String.ofList_cons, String.utf8ByteSize_append, String.utf8ByteSize_singleton,
        utf8Size_of_isLiteralChar chars.1, inductionHypothesis chars.2, List.length_cons,
        Nat.add_comm]

/-! ## Where a cursor is -/

namespace Cursor

/-- The cursor is behind a front of its string, and the rest is left to read. -/
structure IsBehind (cursor : Cursor) (before : String) (rest : Text) : Prop where
  string_eq : cursor.string = before ++ String.ofList rest
  index_eq : cursor.index = before.rawEndPos

theorem isBehind_ofText (text : Text) : (ofText text).IsBehind "" (plain text) where
  string_eq := String.empty_append.symm
  index_eq := rfl

theorem isBehind_finish {cursor : Cursor} {before : String} {rest : Text}
    (stringEq : cursor.string = before ++ String.ofList rest) :
    cursor.finish.IsBehind (before ++ String.ofList rest) [] where
  string_eq := by
    rw [finish, stringEq, String.ofList_nil, String.append_empty]
  index_eq := by
    rw [finish, stringEq]

namespace IsBehind

variable {cursor : Cursor} {before : String} {rest read later : Text}

theorem isOnBoundary (isBehind : cursor.IsBehind before rest) : cursor.IsOnBoundary := by
  have isValid : cursor.index.IsValid cursor.string := by
    rw [isBehind.string_eq, isBehind.index_eq]
    exact String.Pos.Raw.isValid_rawEndPos.append_right _
  exact ⟨isValid.le_utf8ByteSize, isValid⟩

theorem unread_eq (isBehind : cursor.IsBehind before rest) : cursor.unread = .ok rest := by
  have whole := textBetween_append before (String.ofList rest) ""
  rw [String.append_empty, String.toList_ofList] at whole
  rw [unread, isBehind.string_eq, isBehind.index_eq, whole]

/-- The bytes of a text in front lead behind it. -/
theorem advance (isBehind : cursor.IsBehind before (read ++ later)) :
    (cursor.advance (String.ofList read).utf8ByteSize).IsBehind (before ++ String.ofList read)
      later where
  string_eq := by
    rw [Cursor.advance, isBehind.string_eq, String.ofList_append, String.append_assoc]
  index_eq := by
    rw [Cursor.advance, isBehind.index_eq]
    ext
    simp

/-- What the cursor goes over is the text that has so many bytes. -/
theorem textBetween_eq (isBehind : cursor.IsBehind before (read ++ later)) :
    textBetween cursor.string cursor.index
      (cursor.advance (String.ofList read).utf8ByteSize).index = .ok read := by
  have between := textBetween_append before (String.ofList read) (String.ofList later)
  rw [String.toList_ofList, ← isBehind.advance.index_eq, ← isBehind.index_eq,
    String.append_assoc, ← String.ofList_append, ← isBehind.string_eq] at between
  exact between

/-! ## One item -/

theorem countWhile_eq (isBehind : cursor.IsBehind before rest) (p : Char → Bool) :
    cursor.countWhile p = .ok (rest.takeWhile p).length := by
  rw [countWhile, isBehind.unread_eq]
  rfl

/-- A run is read to its end: it has as many bytes as characters. -/
theorem readRun_eq (isBehind : cursor.IsBehind before (read ++ later))
    (chars : ∀ c ∈ read, isLiteralChar c = true) (ends : EndsLiteral later) :
    cursor.readRun =
      .ok (Token.ofLiteral read, cursor.advance (String.ofList read).utf8ByteSize) := by
  rw [readRun, isBehind.countWhile_eq, takeWhile_append_of_ends chars ends,
    ← utf8ByteSize_ofList_of_isLiteralChar chars]
  change (textBetween _ _ _).bind _ = _
  rw [isBehind.textBetween_eq]
  rfl

theorem readItem_nil (isBehind : cursor.IsBehind before []) :
    cursor.readItem = .ok (none, cursor) := by
  rw [readItem, isBehind.unread_eq]
  rfl

theorem readItem_run_append (isBehind : cursor.IsBehind before (read ++ later))
    (isRun : IsRun read) (ends : EndsLiteral later) :
    cursor.readItem =
      .ok (some (Token.ofLiteral read), cursor.advance (String.ofList read).utf8ByteSize) := by
  cases read with
  | nil => exact absurd rfl isRun.ne_nil
  | cons c tail =>
      have isChar := isRun.chars c List.mem_cons_self
      have noSymbol := ofSymbol?_eq_none_of_isLiteralChar isChar
      have run := isBehind.readRun_eq isRun.chars ends
      rw [readItem, isBehind.unread_eq]
      simp only [bind, Except.bind, List.cons_append, List.head?_cons, noSymbol, isChar, if_true,
        run]
      rfl

theorem readItem_symbol_cons {operator : Operator}
    (isBehind : cursor.IsBehind before (operator.symbol :: later)) :
    cursor.readItem =
      .ok (some (.ok (.operator operator)),
        cursor.advance (String.ofList [operator.symbol]).utf8ByteSize) := by
  rw [readItem, isBehind.unread_eq, ← String.singleton_eq_ofList, String.utf8ByteSize_singleton]
  simp only [bind, Except.bind, List.head?_cons, Operator.ofSymbol?_symbol]
  rfl

theorem readItem_unexpected_cons {c : Char} (isBehind : cursor.IsBehind before (c :: later))
    (other : isLiteralChar c = false) (noSymbol : Operator.ofSymbol? c = none) :
    cursor.readItem = .ok (some (.error (.unexpectedChar c)), cursor) := by
  rw [readItem, isBehind.unread_eq]
  simp only [bind, Except.bind, List.head?_cons, other, noSymbol]
  rfl

/-- The next segment is read as what it stands for, and a token leads behind it. -/
theorem exists_readItem {segment : Text} {item : Except ReadingFault Token}
    (isBehind : cursor.IsBehind before (segment ++ later)) (isSegment : IsSegment segment)
    (ends : IsRun segment → EndsLiteral later) (reads : Token.Reads segment item) :
    ∃ behind, cursor.readItem = .ok (some item, behind) ∧ behind.string = cursor.string ∧
      (item.isOk → behind.IsBehind (before ++ String.ofList segment) later) := by
  cases isSegment with
  | run isRun =>
      rw [← (Token.reads_iff_of_isRun isRun).mp reads]
      exact ⟨_, isBehind.readItem_run_append isRun (ends isRun), rfl, fun _ => isBehind.advance⟩
  | @other c other =>
      rw [← (Token.reads_iff_of_other other).mp reads]
      cases isSymbol : Operator.ofSymbol? c with
      | none =>
          refine ⟨_, isBehind.readItem_unexpected_cons other isSymbol, rfl, ?_⟩
          intro isOk
          cases isOk
      | some operator =>
          rw [Operator.ofSymbol?_eq_some_iff.mp isSymbol] at isBehind ⊢
          exact ⟨_, isBehind.readItem_symbol_cons, rfl, fun _ => isBehind.advance⟩

end IsBehind

theorem next_of_readItem {cursor behind : Cursor} {item : Except ReadingFault Token}
    (read : cursor.readItem = .ok (some item, behind)) :
    cursor.next = .ok (some item, if item.isOk then behind else behind.finish) := by
  rw [next, read]
  cases item <;> rfl

namespace IsBehind

variable {cursor : Cursor} {before : String} {rest read later : Text}

/-- A call answers with the first item of what is left, and leaves the others. -/
theorem exists_next (isBehind : cursor.IsBehind before rest) :
    ∃ read later after, rest = read ++ later ∧ (rest ≠ [] → read ≠ []) ∧
      cursor.next = .ok ((Token.readAll rest).head?, after) ∧
      after.IsBehind (before ++ String.ofList read) later ∧
      Token.readAll later = (Token.readAll rest).tail := by
  by_cases isEmpty : rest = []
  · subst isEmpty
    refine ⟨[], [], cursor, rfl, fun nonempty => nonempty, ?_, ?_, ?_⟩
    · rw [next, isBehind.readItem_nil, Token.readAll_nil]
      rfl
    · rw [String.ofList_nil, String.append_empty]
      exact isBehind
    · rw [Token.readAll_nil, List.tail_nil]
  · obtain ⟨segment, later, rfl, _, isSegment, ends, _⟩ := exists_first_segment isEmpty
    obtain ⟨item, reads, _⟩ := Token.existsUnique_reads isSegment
    obtain ⟨behind, found, stringEq, isBehindToken⟩ :=
      isBehind.exists_readItem isSegment ends reads
    rw [Token.readAll_of_next? (Token.next?_of_reads isSegment ends reads),
      next_of_readItem found]
    cases item with
    | ok token =>
        exact ⟨segment, later, _, rfl, fun _ => isSegment.ne_nil, rfl, isBehindToken rfl, rfl⟩
    | error fault =>
        have atEnd := isBehind_finish (stringEq.trans isBehind.string_eq)
        exact ⟨segment ++ later, [], _, (List.append_nil _).symm, id, rfl, atEnd, rfl⟩

/-- What is read leads on by a byte at least. -/
theorem index_lt {after : Cursor} (isBehind : cursor.IsBehind before rest)
    (isAfter : after.IsBehind (before ++ String.ofList read) later) (nonempty : read ≠ []) :
    cursor.index < after.index := by
  have someByte : (String.ofList read).utf8ByteSize ≠ 0 := by
    simpa using nonempty
  rw [isBehind.index_eq, isAfter.index_eq, String.Pos.Raw.lt_iff, String.byteIdx_rawEndPos,
    String.byteIdx_rawEndPos, String.utf8ByteSize_append]
  omega

/-! ## All calls -/

/-- Calls answer with one item after another, and none behind the last. -/
theorem exists_answers (isBehind : cursor.IsBehind before rest) (calls : Nat) :
    ∃ read later behind, rest = read ++ later ∧
      cursor.answers calls =
        .ok ((List.range calls).map fun call => (Token.readAll rest)[call]?, behind) ∧
      behind.IsBehind (before ++ String.ofList read) later ∧
      Token.readAll later = (Token.readAll rest).drop calls := by
  induction calls with
  | zero =>
      refine ⟨[], rest, cursor, rfl, rfl, ?_, rfl⟩
      rw [String.ofList_nil, String.append_empty]
      exact isBehind
  | succ calls inductionHypothesis =>
      obtain ⟨read, later, middle, rfl, answered, isMiddle, left⟩ := inductionHypothesis
      obtain ⟨more, last, behind, rfl, _, next, isLast, leftLast⟩ := isMiddle.exists_next
      refine ⟨read ++ more, last, behind, (List.append_assoc ..).symm, ?_, ?_, ?_⟩
      · rw [answers, answered]
        change (Cursor.next middle).bind _ = _
        rw [next, left, List.head?_drop, List.range_succ, List.map_append]
        rfl
      · rw [String.ofList_append, ← String.append_assoc]
        exact isLast
      · rw [leftLast, left, List.tail_drop]

end IsBehind

/-- However often a cursor is called, it answers: no text is cut out of the string anywhere but
between characters.  It stays on a boundary between characters of the same string, a token
takes it further on, and behind an answer that is no token there are no others.  Its answers
are the items of the text in their order, which are not more than the text has characters, and
none behind the last. -/
theorem answers_ofText (text : Text) (calls : Nat) :
    ∃ answered cursor, (ofText text).answers calls = .ok (answered, cursor) ∧
      (cursor.string = String.ofList (plain text) ∧ cursor.IsOnBoundary) ∧
      (∃ rest, cursor.unread = .ok rest) ∧
      (∃ item behind, cursor.readRun = .ok (item, behind) ∧ behind.IsOnBoundary) ∧
      (∃ answer after, cursor.next = .ok (answer, after) ∧
        ∀ token, answer = some (.ok token) → cursor.index < after.index) ∧
      (answered.Pairwise fun earlier later =>
        (∀ token, earlier ≠ some (.ok token)) → later = none) ∧
      answered = ((List.range calls).map fun call => (Token.readAll (plain text))[call]?) ∧
      (Token.readAll (plain text)).length ≤ (plain text).length := by
  have isFirst := isBehind_ofText text
  obtain ⟨read, rest, cursor, textEq, answered, isBehind, left⟩ := isFirst.exists_answers calls
  rw [String.empty_append] at isBehind
  refine ⟨_, cursor, answered, ⟨?_, isBehind.isOnBoundary⟩, ⟨rest, isBehind.unread_eq⟩,
    ?_, ?_, ?_, rfl, Token.length_readAll_le (plain text)⟩
  · rw [isBehind.string_eq, textEq, String.ofList_append]
  · have parted : cursor.IsBehind (String.ofList read)
        (rest.takeWhile isLiteralChar ++ rest.dropWhile isLiteralChar) := by
      rw [List.takeWhile_append_dropWhile]
      exact isBehind
    have chars := List.all_eq_true.mp (List.all_takeWhile (p := isLiteralChar) (l := rest))
    exact ⟨_, _, parted.readRun_eq chars (endsLiteral_dropWhile rest),
      parted.advance.isOnBoundary⟩
  · obtain ⟨more, later, after, _, someRead, next, isAfter, _⟩ := isBehind.exists_next
    refine ⟨_, after, next, fun token isToken => isBehind.index_lt isAfter (someRead ?_)⟩
    rintro rfl
    rw [Token.readAll_nil] at isToken
    cases isToken
  · obtain ⟨items, itemsEq⟩ := Token.exists_readAll_eq_throughFault (plain text)
    rw [itemsEq, List.pairwise_map]
    exact List.pairwise_lt_range.imp Token.getElem?_throughFault_eq_none

/-- A fault at a character of two bytes is followed by nothing, though a digit stands behind. -/
theorem answers_ofText_of_accent :
    ∃ after third last,
      ((ofText ['−', 'é', '3']).next = .ok (some (.ok (.operator .minus)), after) ∧
        (ofText ['−', 'é', '3']).index < after.index) ∧
      (ofText ['−', 'é', '3']).answers 3 =
          .ok ([some (.ok (.operator .minus)), some (.error (.unexpectedChar 'é')), third], last) ∧
        third = none := by
  obtain ⟨_, _, start, _, _, _, ⟨_, _, next, advances⟩, _⟩ := answers_ofText ['−', 'é', '3'] 0
  obtain ⟨_, _, answered, _, _, _, _, pairwise, answeredEq, _⟩ := answers_ofText ['−', 'é', '3'] 3
  cases start
  have isFirst : (ofText ['−', 'é', '3']).IsBehind "" (Operator.minus.symbol :: ['é', '3']) :=
    isBehind_ofText ['−', 'é', '3']
  have items : Token.readAll (plain ['−', 'é', '3']) =
      [.ok (.operator .minus), .error (.unexpectedChar 'é')] := by
    have first : Token.next? (plain ['−', 'é', '3']) =
        some (.ok (.operator .minus), ['é', '3']) := rfl
    have second : Token.next? ['é', '3'] = some (.error (.unexpectedChar 'é'), []) := rfl
    rw [Token.readAll_of_next? first, Token.readAll_of_next? second, Token.readAll_nil]
  rw [items] at answeredEq
  subst answeredEq
  cases next.symm.trans (next_of_readItem isFirst.readItem_symbol_cons)
  have behindFault := (List.pairwise_cons.mp (List.pairwise_cons.mp pairwise).2).1
  refine ⟨_, _, _, ⟨next, advances _ rfl⟩, answered, ?_⟩
  apply behindFault _ List.mem_cons_self
  intro token isToken
  cases isToken

end Cursor

end AmountPad
