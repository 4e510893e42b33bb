import AmountPad.Proofs.Toml.Bare

/-!
# Reading a document of assignments

Each line of a document of assignments is read as one statement, which is applied to the
table of all lines before it.  A key that the table has already is refused, so the document
has a table if its keys are distinct, and then the table holds every assignment in its order.
-/

namespace AmountPad.Toml

/-! ## Lines that start with a key -/

/-- A character of a bare key is none of the others. -/
theorem ne_of_isKeyChar {c d : Char} (isKey : isKeyChar c = true)
    (other : isKeyChar d = false) : c ≠ d := by
  rintro rfl
  rw [isKey] at other
  cases other

section Starts

variable {c : Char} (isKey : isKeyChar c = true) (rest : Text)

include isKey

theorem skipSpace_cons : skipSpace (c :: rest) = c :: rest := by
  have noSpace : c ≠ ' ' := ne_of_isKeyChar isKey (by decide)
  have noTab : c ≠ '\t' := ne_of_isKeyChar isKey (by decide)
  simp [skipSpace, isSpace, noSpace, noTab]

/-- A line that starts with a key does not end there. -/
theorem lineEnd?_cons : lineEnd? (c :: rest) = none := by
  have noComment : c ≠ '#' := ne_of_isKeyChar isKey (by decide)
  have noLineFeed : c ≠ '\n' := ne_of_isKeyChar isKey (by decide)
  have noReturn : c ≠ '\r' := ne_of_isKeyChar isKey (by decide)
  rw [lineEnd?, skipSpace_cons isKey]
  simp [skipComment, newline?, noComment, noLineFeed, noReturn]

theorem skipByteOrderMark_cons : skipByteOrderMark (c :: rest) = c :: rest := by
  have noMark : c ≠ '\uFEFF' := ne_of_isKeyChar isKey (by decide)
  simp [skipByteOrderMark, noMark]

end Starts

section Keys

variable {key : Text} (isBare : IsBareKey key)

include isBare

theorem IsBareKey.exists_cons : ∃ c others, key = c :: others ∧ isKeyChar c = true := by
  obtain ⟨c, others, rfl⟩ := List.exists_cons_of_ne_nil isBare.1
  exact ⟨c, others, rfl, isBare.2 c List.mem_cons_self⟩

theorem IsBareKey.key?_append {rest : Text} (ends : ∀ c ∈ rest.head?, isKeyChar c = false) :
    key? (key ++ rest) = some (key, rest) := by
  have taken := takeWhile_append_of_ends isBare.2 ends
  have left := dropWhile_append_of_ends isBare.2 ends
  obtain ⟨c, others, rfl, isKey⟩ := isBare.exists_cons
  have noDouble : c ≠ '"' := ne_of_isKeyChar isKey (by decide)
  have noSingle : c ≠ '\'' := ne_of_isKeyChar isKey (by decide)
  rw [List.cons_append] at taken left ⊢
  simp [key?, noDouble, noSingle, taken, left]

/-- A bare key in front of an equals sign is a path of one key. -/
theorem IsBareKey.path?_append (rest : Text) :
    path? (key ++ ' ' :: '=' :: rest) = some (⟨[], key⟩, '=' :: rest) := by
  rw [path?, isBare.key?_append (by simp; decide)]
  rfl

end Keys

/-! ## Lines -/

/-- The statement of an assignment. -/
def Assignment.statement (assignment : Assignment) : Statement :=
  .assign ⟨[], assignment.key⟩ assignment.value.toValue

/-- A scalar starts with a quote or a bare character. -/
theorem Scalar.IsWritten.exists_cons {value : Scalar} {written : Text}
    (isWritten : value.IsWritten written) :
    ∃ c others, written = c :: others ∧ (c = '"' ∨ isBareChar c = true) := by
  cases isWritten with
  | string => exact ⟨_, _, rfl, .inl rfl⟩
  | boolean flag => cases flag <;> exact ⟨_, _, rfl, .inr (by decide)⟩
  | integer _ _ isDecimal =>
      obtain ⟨c, others, rfl⟩ := List.exists_cons_of_ne_nil isDecimal.ne_nil
      exact ⟨c, others, rfl, .inr (isDecimal.isBareChar c List.mem_cons_self)⟩

/-- Without a bracket in front a value is a simple one. -/
theorem value?_of_ne {depth : Nat} {c : Char} {rest : Text} (noArray : c ≠ '[')
    (noTable : c ≠ '{') : value? (depth + 1) (c :: rest) = simple? (c :: rest) := by
  simp [value?, noArray, noTable]

/-- Without a bracket in front a statement is an assignment. -/
theorem statement?_of_path? {c : Char} {rest more : Text} {path : Path} (noHeader : c ≠ '[')
    (pathEq : path? (c :: rest) = some (path, '=' :: more)) :
    statement? (c :: rest) = (value? maxDepth (skipSpace more)).map fun (value, rest) =>
      (.assign path value, rest) := by
  simp [statement?, noHeader, pathEq]

section Ends

variable {rest : Text} (ends : ∀ c ∈ rest.head?, isLineEndChar c = true)

include ends

theorem Scalar.IsWritten.value?_eq {value : Scalar} {written : Text}
    (isWritten : value.IsWritten written) :
    value? maxDepth (skipSpace (' ' :: (written ++ rest))) = some (value.toValue, rest) := by
  obtain ⟨c, others, rfl, isFirst⟩ := isWritten.exists_cons
  have noSpace : isSpace c = false := by
    rcases isFirst with rfl | isBare
    · decide
    · simp only [isSpace, Bool.or_eq_false_iff, decide_eq_false_iff_not]
      constructor <;> rintro rfl <;> cases isBare
  have noBracket : c ≠ '[' ∧ c ≠ '{' := by
    constructor <;> rintro rfl <;> simp [isBareChar, Char.isAlphanum] at isFirst
  rw [skipSpace, List.dropWhile_cons_of_pos (by decide), List.cons_append,
    List.dropWhile_cons_of_neg (by simp [noSpace]), maxDepth,
    value?_of_ne noBracket.1 noBracket.2]
  exact isWritten.simple?_eq ends

/-- A line is read as the statement of its assignment. -/
theorem Assignment.IsLine.statement?_append {assignment : Assignment} {line : Text}
    (isLine : assignment.IsLine line) :
    statement? (line ++ rest) = some (assignment.statement, rest) := by
  cases isLine with
  | @intro key written value isBare isWritten =>
      have path := isBare.path?_append (' ' :: (written ++ rest))
      have textEq : key ++ " = ".toList ++ written ++ rest =
          key ++ ' ' :: '=' :: ' ' :: (written ++ rest) := by
        simp
      rw [textEq]
      obtain ⟨c, others, rfl, isKey⟩ := isBare.exists_cons
      rw [List.cons_append] at path ⊢
      rw [statement?_of_path? (ne_of_isKeyChar isKey (by decide)) path,
        isWritten.value?_eq ends]
      rfl

end Ends

theorem Assignment.IsLine.exists_cons {assignment : Assignment} {line : Text}
    (isLine : assignment.IsLine line) :
    ∃ c others, line = c :: others ∧ isKeyChar c = true := by
  cases isLine with
  | intro isBare =>
      obtain ⟨c, others, rfl, isKey⟩ := isBare.exists_cons
      exact ⟨c, _, rfl, isKey⟩

/-! ## Documents -/

/-- A line is one statement in front of those of the other lines. -/
theorem Assignment.IsLine.statements?_append {assignment : Assignment} {line ends rest : Text}
    (isLine : assignment.IsLine line) (isEnd : ∀ c ∈ ends.head?, isLineEndChar c = true)
    (endEq : lineEnd? ends = some rest) (shorter : rest.length ≤ ends.length) :
    statements? (line ++ ends) = (statements? rest).map (assignment.statement :: ·) := by
  have statementEq := isLine.statement?_append isEnd
  obtain ⟨c, others, rfl, isKey⟩ := isLine.exists_cons
  rw [List.cons_append] at statementEq ⊢
  rw [statements?, if_neg (List.cons_ne_nil _ _), lineEnd?_cons isKey]
  simp only [skipSpace_cons isKey, statementEq, endEq]
  -- the reader goes on because the line has taken at least one character
  rw [if_pos (by simp only [List.length_cons, List.length_append]; omega)]

theorem IsLineEnd.lineEnd?_append {lineEnd : Text} (isEnd : IsLineEnd lineEnd) (rest : Text) :
    lineEnd? (lineEnd ++ rest) = some rest := by
  cases isEnd <;> rfl

theorem IsLineEnd.isLineEndChar {lineEnd : Text} (isEnd : IsLineEnd lineEnd) (rest : Text) :
    ∀ c ∈ (lineEnd ++ rest).head?, isLineEndChar c = true := by
  cases isEnd <;> simp [Toml.isLineEndChar]

section Documents

variable {assignments : List Assignment} {text : Text}
  (isDocument : IsDocument assignments text)

include isDocument

/-- Every line is one statement, in the order of the lines. -/
theorem IsDocument.statements?_eq :
    statements? text = some (assignments.map Assignment.statement) := by
  induction isDocument with
  | nil => rw [statements?, if_pos rfl, List.map_nil]
  | @last assignment line isLine =>
      have noText : statements? [] = some [] := by rw [statements?, if_pos rfl]
      have lineEq : statements? (line ++ []) =
          (statements? []).map (assignment.statement :: ·) :=
        isLine.statements?_append (by simp) rfl le_rfl
      rwa [List.append_nil, noText] at lineEq
  | @cons assignment assignments line lineEnd text isLine isEnd _ inductionHypothesis =>
      rw [List.append_assoc, isLine.statements?_append (isEnd.isLineEndChar text)
        (isEnd.lineEnd?_append text) (by simp), inductionHypothesis]
      rfl

/-- A document of assignments has no byte order mark. -/
theorem IsDocument.skipByteOrderMark_eq : skipByteOrderMark text = text := by
  have lineEq {assignment : Assignment} {line : Text} (isLine : assignment.IsLine line)
      (rest : Text) : skipByteOrderMark (line ++ rest) = line ++ rest := by
    obtain ⟨c, others, rfl, isKey⟩ := isLine.exists_cons
    exact skipByteOrderMark_cons isKey _
  cases isDocument with
  | nil => rfl
  | last isLine => simpa using lineEq isLine []
  | cons isLine =>
      rw [List.append_assoc]
      exact lineEq isLine _

end Documents

/-! ## The table of a document -/

/-- The entry of an assignment. -/
def Assignment.entry (assignment : Assignment) : Text × Value :=
  (assignment.key, assignment.value.toValue)

theorem Table.isSome_get?_iff {table : Table} {key : Text} :
    (table.get? key).isSome = true ↔ key ∈ table.map Prod.fst := by
  simp [Table.get?, List.lookup_isSome_iff]

/-- A new key gets the last place of the table, and a key of the table is refused. -/
theorem apply_statement (table : Table) (assignment : Assignment) :
    Document.apply { root := table } assignment.statement =
      if assignment.key ∈ table.map Prod.fst then none
      else some { root := table ++ [assignment.entry] } := by
  have assignEq : Document.apply { root := table } assignment.statement =
      (if (table.get? assignment.key).isSome then none
        else some (table.put assignment.key assignment.value.toValue)).map
        fun root => { root } := rfl
  rw [assignEq]
  simp only [Table.isSome_get?_iff]
  split
  · rfl
  · rename_i isNew
    rw [Table.put, if_neg (by rwa [Table.isSome_get?_iff])]
    rfl

/-- The table takes in all assignments if no key is assigned twice. -/
theorem foldlM_apply (table : Table) (distinct : (table.map Prod.fst).Nodup)
    (assignments : List Assignment) :
    (assignments.map Assignment.statement).foldlM Document.apply { root := table } =
      if (table.map Prod.fst ++ assignments.map Assignment.key).Nodup then
        some { root := table ++ assignments.map Assignment.entry }
      else none := by
  induction assignments generalizing table with
  | nil => simp [distinct]
  | cons assignment assignments inductionHypothesis =>
      rw [List.map_cons, List.foldlM_cons, apply_statement]
      by_cases known : assignment.key ∈ table.map Prod.fst
      · have repeated :
            ¬(table.map Prod.fst ++ (assignment :: assignments).map Assignment.key).Nodup := by
          intro allDistinct
          exact (List.nodup_append.mp allDistinct).2.2 _ known _ (by simp) rfl
        rw [if_pos known, if_neg repeated]
        rfl
      · have newDistinct : ((table ++ [assignment.entry]).map Prod.fst).Nodup := by
          rw [List.map_append, List.nodup_append_comm]
          exact List.nodup_cons.mpr ⟨known, distinct⟩
        have keysEq : (table ++ [assignment.entry]).map Prod.fst ++
              assignments.map Assignment.key =
            table.map Prod.fst ++ (assignment :: assignments).map Assignment.key := by
          simp [Assignment.entry]
        -- the keys of the longer table are distinct too, which the next step needs
        rw [if_neg known, ← keysEq]
        simpa using inductionHypothesis _ newDistinct

/-- A document of assignments has a table if no key is assigned twice, and then the table
holds every assignment. -/
theorem IsDocument.read?_eq {assignments : List Assignment} {text : Text}
    (isDocument : IsDocument assignments text) :
    read? text = if (assignments.map Assignment.key).Nodup then
        some (assignments.map Assignment.entry)
      else none := by
  have run := foldlM_apply [] List.nodup_nil assignments
  rw [List.map_nil, List.nil_append, List.nil_append] at run
  simp only [read?, isDocument.skipByteOrderMark_eq, isDocument.statements?_eq, run]
  split <;> rfl

/-! ## Looking up assignments -/

/-- Where keys are distinct, each entry is the one that its key is looked up at. -/
theorem Table.get?_eq_some_iff {table : Table} (distinct : (table.map Prod.fst).Nodup)
    {key : Text} {value : Value} : table.get? key = some value ↔ (key, value) ∈ table := by
  rw [Table.get?, List.lookup_eq_some_iff]
  constructor
  · rintro ⟨before, behind, rfl, -⟩
    simp
  · intro member
    obtain ⟨before, behind, rfl⟩ := List.append_of_mem member
    rw [List.map_append, List.map_cons, List.nodup_middle, List.nodup_cons] at distinct
    refine ⟨before, behind, rfl, fun entry isBefore => ?_⟩
    rw [bne_iff_ne]
    rintro rfl
    exact distinct.1 (List.mem_append_left _ (List.mem_map.mpr ⟨entry, isBefore, rfl⟩))

section Assignments

variable {assignments : List Assignment} {key : Text}

theorem keys_entries :
    (assignments.map Assignment.entry).map Prod.fst = assignments.map Assignment.key := by
  rw [List.map_map]
  rfl

theorem get?_entries_eq_none_iff :
    Table.get? (assignments.map Assignment.entry) key = none ↔
      ∀ assignment ∈ assignments, assignment.key ≠ key := by
  rw [← Option.not_isSome_iff_eq_none, Table.isSome_get?_iff, keys_entries]
  simp

variable (distinct : (assignments.map Assignment.key).Nodup)

include distinct

theorem get?_entries_eq_some_iff {value : Value} :
    Table.get? (assignments.map Assignment.entry) key = some value ↔
      ∃ assignment ∈ assignments, assignment.key = key ∧ assignment.value.toValue = value := by
  rw [Table.get?_eq_some_iff (by rwa [keys_entries])]
  simp [Assignment.entry]

theorem get?_entries_eq_toValue_iff (scalar : Scalar) :
    Table.get? (assignments.map Assignment.entry) key = some scalar.toValue ↔
      ⟨key, scalar⟩ ∈ assignments := by
  rw [get?_entries_eq_some_iff distinct]
  constructor
  · rintro ⟨⟨_, given⟩, member, rfl, valueEq⟩
    have same : given = scalar := by
      cases given <;> cases scalar <;> simp_all [Scalar.toValue]
    rwa [same] at member
  · exact fun member => ⟨_, member, rfl, rfl⟩

end Assignments

end AmountPad.Toml
