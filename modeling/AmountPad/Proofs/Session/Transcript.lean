import AmountPad.CommandLine
import AmountPad.Proofs.Session.Encoding

/-!
# A session is told by its keys

What a session prints is the prompt, and behind each line that is taken the report
of what all keys so far make of a new pad.  So it does not matter how the keys are
parted into lines, nor where blanks stand, and nothing matters behind a blank line.
-/

namespace AmountPad

/-! ## Keys -/

theorem Step.ofChar?_eq (c : Char) :
    Step.ofChar? c = if isBlank c then none else some (Step.ofKey c) := by
  by_cases isKey : c = '<' ∨ c = 'c' ∨ c = 'C' ∨ c = '='
  · rcases isKey with rfl | rfl | rfl | rfl <;> rfl
  · unfold Step.ofChar? Step.ofKey
    simp only [not_or] at isKey
    simp [isKey]

namespace Session

theorem keys_append (first second : Text) : keys (first ++ second) = keys first ++ keys second :=
  List.filter_append _ _

/-- A text without keys is blank. -/
theorem keys_eq_nil_iff {text : Text} : keys text = [] ↔ text.all isBlank = true := by
  simp [keys, List.filter_eq_nil_iff, List.all_eq_true]

theorem steps_eq_map_keys (line : Text) : steps line = (keys line).map Step.ofKey := by
  induction line with
  | nil => rfl
  | cons c line inductionHypothesis =>
      unfold steps keys at *
      rw [List.filterMap_cons, Step.ofChar?_eq, inductionHypothesis]
      cases blank : isBlank c <;> simp [blank]

theorem padAfter_append (first second : Text) :
    padAfter (first ++ second) = (padAfter first).run (second.map Step.ofKey) := by
  rw [padAfter, List.map_append, Pad.run_append]
  rfl

/-- The keys of a line are all that matters to what comes of it. -/
theorem reply_eq (pad : Pad) (line : List UInt8) :
    reply pad line =
      ((decode? line).map keys).elim .unreadable fun pressed =>
        if pressed = [] then .finished else .taken (pad.run (pressed.map Step.ofKey)) := by
  unfold reply
  cases decode? line with
  | none => rfl
  | some text =>
      simp only [Option.map_some, Option.elim_some, keys_eq_nil_iff, steps_eq_map_keys]

/-! ## Cutting an input into lines -/

/-- Sessions go on alike behind lines that come to the same. -/
theorem proceed_cons_congr {settings : Settings} {pad : Pad} {first second : List UInt8}
    {later others : List (List UInt8)} (sameReply : reply pad first = reply pad second)
    (sameLater : ∀ next, proceed settings next later = proceed settings next others) :
    proceed settings pad (first :: later) = proceed settings pad (second :: others) := by
  rw [proceed, proceed, sameReply]
  cases reply pad second with
  | taken next => exact congrArg (Outcome.after · _) (sameLater next)
  | finished => rfl
  | unreadable => rfl

/-- Carriage returns at the ends of lines do not matter. -/
theorem proceed_map_dropReturn (settings : Settings) (pad : Pad)
    (lines later : List (List UInt8)) :
    proceed settings pad (lines.map dropReturn ++ later) =
      proceed settings pad (lines ++ later) := by
  induction lines generalizing pad with
  | nil => rfl
  | cons line lines inductionHypothesis =>
      have sameReply : reply pad (dropReturn line) = reply pad line := by
        rw [reply_eq, map_keys_decode?_dropReturn, ← reply_eq]
      exact proceed_cons_congr sameReply inductionHypothesis

/-- Nothing matters behind a blank line. -/
theorem proceed_append_blank (settings : Settings) (pad : Pad) {blank : List UInt8}
    (ends : ∀ pad, reply pad blank = .finished) (lines later : List (List UInt8)) :
    proceed settings pad (lines ++ blank :: later) = proceed settings pad lines := by
  induction lines generalizing pad with
  | nil =>
      rw [List.nil_append, proceed, proceed, ends]
  | cons line lines inductionHypothesis => exact proceed_cons_congr rfl inductionHypothesis

theorem reply_nil (pad : Pad) : reply pad [] = .finished :=
  rfl

/-- The lines of an input are its pieces between line feeds, but for an empty last
one. -/
theorem splitOn_lineFeed (input : List UInt8) :
    input.splitOn lineFeed = lines input ∨ input.splitOn lineFeed = lines input ++ [[]] := by
  induction input with
  | nil => exact .inr rfl
  | cons byte rest inductionHypothesis =>
      rw [List.splitOn_cons_eq_if_modifyHead, lines]
      simp only [beq_iff_eq]
      split
      · rcases inductionHypothesis with same | same <;> rw [same]
        · exact .inl rfl
        · exact .inr rfl
      · cases linesEq : lines rest with
        | nil =>
            rw [linesEq] at inductionHypothesis
            rcases inductionHypothesis with same | same
            · exact absurd same (List.splitOn_ne_nil _ _)
            · rw [same]
              exact .inl rfl
        | cons line later =>
            rw [linesEq] at inductionHypothesis
            rcases inductionHypothesis with same | same <;> rw [same]
            · exact .inl rfl
            · exact .inr rfl

theorem proceed_splitOn (settings : Settings) (pad : Pad) (input : List UInt8) :
    proceed settings pad (input.splitOn lineFeed) = proceed settings pad (lines input) := by
  rcases splitOn_lineFeed input with same | same
  · rw [same]
  · rw [same, proceed_append_blank settings pad reply_nil]

theorem proceed_cut (settings : Settings) (pad : Pad) (input : List UInt8) :
    proceed settings pad (cut input) = proceed settings pad (lines input) := by
  have whole : (input.splitOn lineFeed).dropLast ++ (input.splitOn lineFeed).getLast?.toList =
      input.splitOn lineFeed := by
    rcases List.eq_nil_or_concat (input.splitOn lineFeed) with isEmpty | ⟨front, last, eq⟩
    · exact absurd isEmpty (List.splitOn_ne_nil _ _)
    · simp [eq]
  rw [cut, proceed_map_dropReturn, whole, proceed_splitOn]

/-! ## Lines that are taken -/

theorem goesOn_some_iff {text : Text} : goesOn (some text) = true ↔ keys text ≠ [] := by
  rw [Ne, keys_eq_nil_iff]
  simp [goesOn]

/-- A line with keys is taken. -/
theorem taken_cons {line : List UInt8} {text : Text} (decoded : decode? line = some text)
    (someKey : keys text ≠ []) (later : List (List UInt8)) :
    taken (line :: later) = text :: taken later := by
  simp [taken, decoded, goesOn_some_iff.mpr someKey]

theorem stop?_cons {line : List UInt8} {text : Text} (decoded : decode? line = some text)
    (someKey : keys text ≠ []) (later : List (List UInt8)) :
    stop? (line :: later) = stop? later := by
  simp [stop?, decoded, goesOn_some_iff.mpr someKey]

/-- The first line that ends a session is not taken. -/
theorem taken_cons_of_stops {line : List UInt8} (stops : goesOn (decode? line) = false)
    (later : List (List UInt8)) :
    taken (line :: later) = [] ∧ stop? (line :: later) = some (decode? line) := by
  simp [taken, stop?, stops]

/-- Every line that is taken has keys. -/
theorem keys_ne_nil_of_mem_taken {lines : List (List UInt8)} {text : Text}
    (member : text ∈ taken lines) : keys text ≠ [] := by
  obtain ⟨line, inFront, isText⟩ := List.mem_filterMap.mp member
  have isSome : line = some text := isText
  have goes := List.all_eq_true.mp List.all_takeWhile line inFront
  rw [isSome] at goes
  exact goesOn_some_iff.mp goes

/-! ## Reports -/

theorem tail_inits_cons {α : Type} (first : α) (later : List α) :
    (first :: later).inits.tail = [first] :: later.inits.tail.map (first :: ·) := by
  cases later <;> simp

/-- What follows behind some keys: a report for every line that is taken, of all
keys up to it. -/
theorem proceed_padAfter (settings : Settings) (pressed : Text) (lines : List (List UInt8)) :
    proceed settings (padAfter pressed) lines =
      { output := (taken lines).inits.tail.flatMap fun soFar =>
          answer settings (padAfter (pressed ++ keys soFar.flatten))
        exit := if stop? lines = some none then .failure unreadableMessage else .success } := by
  induction lines generalizing pressed with
  | nil => rfl
  | cons line later inductionHypothesis =>
      rw [proceed, reply_eq]
      cases decoded : decode? line with
      | none =>
          have stops : goesOn (decode? line) = false := by
            rw [decoded]
            rfl
          obtain ⟨takenEq, stopEq⟩ := taken_cons_of_stops stops later
          rw [takenEq, stopEq, decoded]
          rfl
      | some text =>
          by_cases noKey : keys text = []
          · have stops : goesOn (decode? line) = false := by
              rw [decoded, ← Bool.not_eq_true, goesOn_some_iff, not_not]
              exact noKey
            obtain ⟨takenEq, stopEq⟩ := taken_cons_of_stops stops later
            rw [takenEq, stopEq, decoded, Option.map_some, Option.elim_some, if_pos noKey]
            rfl
          · rw [taken_cons decoded noKey, stop?_cons decoded noKey, Option.map_some,
              Option.elim_some, if_neg noKey, ← padAfter_append]
            simp only [inductionHypothesis, Outcome.after, tail_inits_cons, List.flatMap_cons,
              List.flatMap_map, List.flatten_cons, List.flatten_nil, List.append_nil,
              keys_append, List.append_assoc]

/-- A whole session. -/
theorem run_eq (settings : Settings) (input : List UInt8) :
    run settings input =
      { output := settings.prompt ++ (reports settings (cut input)).flatMap (· ++ settings.prompt)
        exit := if stop? (cut input) = some none then .failure unreadableMessage
          else .success } := by
  have proceeds := proceed_padAfter settings [] (cut input)
  rw [proceed_cut] at proceeds
  rw [run, show ({} : Pad) = padAfter [] from rfl, proceeds, Outcome.after, reports,
    List.flatMap_map]
  rfl

theorem tail_inits_concat {α : Type} (front : List α) (last : α) :
    (front ++ [last]).inits.tail = front.inits.tail ++ [front ++ [last]] := by
  cases front <;> simp [List.inits_append]

/-- The last report is that of all keys. -/
theorem getLast?_reports (settings : Settings) (lines : List (List UInt8)) :
    (reports settings lines).getLast? =
      if keys (taken lines).flatten = [] then none
      else some (report settings (padAfter (keys (taken lines).flatten))) := by
  rcases List.eq_nil_or_concat (taken lines) with isEmpty | ⟨front, last, takenEq⟩
  · rw [reports, isEmpty]
    rfl
  · rw [List.concat_eq_append] at takenEq
    have lastTaken : last ∈ taken lines := by simp [takenEq]
    have someKey : keys (front ++ [last]).flatten ≠ [] := by
      simp [keys_append, keys_ne_nil_of_mem_taken lastTaken]
    rw [reports, takenEq, tail_inits_concat, List.map_append, List.map_singleton,
      List.getLast?_concat, if_neg someKey]

/-! ## Parting keys into lines -/

theorem cut_encode_append {line : Text} (oneLine : '\n' ∉ line) (rest : List UInt8) :
    cut (encode line ++ lineFeed :: rest) = dropReturn (encode line) :: cut rest := by
  have pieces := List.splitOn_append_cons_self_of_not_mem (lineFeed_notMem_encode oneLine) rest
  have nonempty := List.splitOn_ne_nil lineFeed rest
  rw [cut, pieces, List.dropLast_cons_of_ne_nil nonempty, List.getLast?_cons_of_ne_nil nonempty]
  rfl

/-- The keys of some lines, none of them blank, and of what follows. -/
theorem keys_taken_encodeLines {lines : List Text}
    (areLines : ∀ line ∈ lines, '\n' ∉ line ∧ keys line ≠ []) (rest : List UInt8) :
    keys (taken (cut (encodeLines lines ++ rest))).flatten =
      keys lines.flatten ++ keys (taken (cut rest)).flatten := by
  induction lines with
  | nil => rfl
  | cons line lines inductionHypothesis =>
      rw [List.forall_mem_cons] at areLines
      obtain ⟨⟨oneLine, someKey⟩, areLines⟩ := areLines
      have keysEq := map_keys_decode?_dropReturn (encode line)
      rw [decode?_encode, Option.map_some, Option.map_eq_some_iff] at keysEq
      obtain ⟨text, decoded, sameKeys⟩ := keysEq
      rw [← sameKeys] at someKey
      rw [encodeLines, List.flatMap_cons, List.append_assoc, List.append_assoc,
        List.singleton_append, cut_encode_append oneLine, taken_cons decoded someKey,
        List.flatten_cons, keys_append, sameKeys, List.flatten_cons, keys_append,
        List.append_assoc]
      exact congrArg _ (inductionHypothesis areLines)

/-- The last report does not depend on how the keys are parted into lines. -/
theorem getLast?_reports_encodeLines (settings : Settings) {first second : List Text}
    (areLines : ∀ line ∈ first ++ second, '\n' ∉ line ∧ keys line ≠ []) {rest other : List UInt8}
    (sameKeys : keys first.flatten ++ keys (taken (cut rest)).flatten =
      keys second.flatten ++ keys (taken (cut other)).flatten) :
    (reports settings (cut (encodeLines first ++ rest))).getLast? =
      (reports settings (cut (encodeLines second ++ other))).getLast? := by
  rw [List.forall_mem_append] at areLines
  rw [getLast?_reports, getLast?_reports, keys_taken_encodeLines areLines.1,
    keys_taken_encodeLines areLines.2, sameKeys]

/-- What stands behind a blank line does not matter. -/
theorem run_append_blank (settings : Settings) {before blank : List UInt8} {text : Text}
    (boundary : before = [] ∨ before.getLast? = some lineFeed) (oneLine : lineFeed ∉ blank)
    (decoded : decode? blank = some text) (isBlankText : text.all isBlank = true)
    (after : List UInt8) :
    run settings (before ++ blank ++ lineFeed :: after) = run settings (before ++ blank) := by
  have ends : ∀ pad, reply pad blank = .finished := by
    intro pad
    rw [reply, decoded]
    exact if_pos isBlankText
  have pieces : ∃ front, (before ++ blank).splitOn lineFeed = front ++ [blank] := by
    rcases boundary with rfl | endsLine
    · exact ⟨[], List.splitOn_eq_singleton oneLine⟩
    · obtain ⟨front, rfl⟩ := List.getLast?_eq_some_iff.mp endsLine
      refine ⟨front.splitOn lineFeed, ?_⟩
      rw [List.append_assoc, List.singleton_append, List.splitOn_append_cons_self,
        List.splitOn_eq_singleton oneLine]
  obtain ⟨front, frontEq⟩ := pieces
  rw [run, run, ← proceed_splitOn, ← proceed_splitOn, List.splitOn_append_cons_self, frontEq,
    List.append_assoc, List.singleton_append, proceed_append_blank settings {} ends,
    proceed_append_blank settings {} ends]

/-- A run without an expression prints the prompt, and behind each line that is taken
the report of all keys so far and the prompt.  It fails if the first line that ends
it is not UTF-8, and succeeds otherwise.  So the last report stays the same when the
same keys are parted into other lines or set apart by other blanks, and nothing
behind a blank line matters. -/
theorem perform_eq_reports {options : CommandLine.Options}
    {file : Option CommandLine.SettingsFile} {settings : Settings}
    (interactive : options.expression = none)
    (loaded : CommandLine.loadSettings file = .ok settings) :
    (∀ input,
        CommandLine.perform options file input =
            { output := settings.prompt ++
                (reports settings (cut input)).flatMap (· ++ settings.prompt)
              exit := if stop? (cut input) = some none
                then .failure "Failed to read from stdin".toList else .success } ∧
          (CommandLine.perform options file input).exit.status =
            if stop? (cut input) = some none then 1 else 0) ∧
      (∀ first second rest other,
        (∀ line ∈ first ++ second, '\n' ∉ line ∧ ¬ line.all isBlank) →
        keys first.flatten ++ keys (taken (cut rest)).flatten =
            keys second.flatten ++ keys (taken (cut other)).flatten →
          (reports settings (cut (encodeLines first ++ rest))).getLast? =
            (reports settings (cut (encodeLines second ++ other))).getLast?) ∧
      ∀ before blank text after, before = [] ∨ before.getLast? = some lineFeed →
        lineFeed ∉ blank → decode? blank = some text → text.all isBlank →
          CommandLine.perform options file (before ++ blank ++ lineFeed :: after) =
            CommandLine.perform options file (before ++ blank) := by
  have session : ∀ input, CommandLine.perform options file input = run settings input := by
    intro input
    rw [CommandLine.perform, loaded]
    simp only [interactive]
  refine ⟨?_, ?_, ?_⟩
  · intro input
    rw [session, run_eq]
    refine ⟨rfl, ?_⟩
    split <;> rfl
  · intro first second rest other areLines sameKeys
    apply getLast?_reports_encodeLines settings _ sameKeys
    intro line member
    rw [Ne, keys_eq_nil_iff]
    exact areLines line member
  · intro before blank text after boundary oneLine decoded isBlankText
    rw [session, session]
    exact run_append_blank settings boundary oneLine decoded isBlankText after

/-- Two lines of a sum end at a blank line, and a line that is not UTF-8 ends in a
failure.  The same sum in other lines has the same last report. -/
theorem perform_eq_reports_of_sum :
    let sum := encode "1+2\r\n 3\n\t\n9".toList
    let broken := encode "1\n2".toList ++ [0xC3]
    ((CommandLine.perform {} none sum).output = "> 1+2  = 3\n> 1+23  = 24\n> ".toList ∧
        (CommandLine.perform {} none sum).exit.status = 0) ∧
      ((CommandLine.perform {} none broken).output = "> 1  = 1\n> ".toList ∧
        (CommandLine.perform {} none broken).exit.status = 1) ∧
      (reports {} (cut (encodeLines ["1+2".toList, "3".toList] ++ []))).getLast? =
        (reports {} (cut (encodeLines ["1 +".toList] ++ encode "23\r".toList))).getLast? ∧
      CommandLine.perform {} none (encode "1\n".toList ++ encode " \r".toList ++ lineFeed :: [57]) =
        CommandLine.perform {} none (encode "1\n".toList ++ encode " \r".toList) := by
  intro sum broken
  obtain ⟨outcomes, parted, behindBlank⟩ := @perform_eq_reports {} none {} rfl rfl
  have sumReports : reports {} (cut sum) = ["1+2  = 3\n".toList, "1+23  = 24\n".toList] := by
    decide +kernel
  have sumStop : stop? (cut sum) ≠ some none := by decide +kernel
  have brokenReports : reports {} (cut broken) = ["1  = 1\n".toList] := by decide +kernel
  have brokenStop : stop? (cut broken) = some none := by decide +kernel
  constructor
  · rw [(outcomes sum).2, (outcomes sum).1, sumReports, if_neg sumStop]
    exact ⟨by decide, rfl⟩
  constructor
  · rw [(outcomes broken).2, (outcomes broken).1, brokenReports, if_pos brokenStop]
    exact ⟨by decide, rfl⟩
  · exact ⟨parted _ _ [] _ (by decide) (by decide),
      behindBlank _ _ _ [57] (by decide) (by decide) (decode?_encode _) (by decide)⟩

end Session

end AmountPad
