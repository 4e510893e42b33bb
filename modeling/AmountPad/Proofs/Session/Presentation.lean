import AmountPad.CommandLine.Invocation
import AmountPad.Proofs.Pad.Reachable
import AmountPad.Proofs.Session.Transcript

/-!
# Settings change nothing but how a session looks

No state of a session depends on its settings.  A text that can be typed has no
blanks, so its plain spelling only writes its glyphs in ASCII; the texts of values are
in ASCII already.  So two sessions with the same prompt print the same, but for the
spelling of the operators.
-/

namespace AmountPad

/-! ## Characters -/

/-- Three glyphs have another plain spelling, and all other characters have their own. -/
theorem plainChar_eq (c : Char) :
    plainChar c =
      if c = '−' then '-' else if c = '×' then '*' else if c = '÷' then '/' else c := by
  cases read : Operator.ofGlyph? c with
  | some operator =>
      rw [Operator.ofGlyph?_eq_some_iff.mp read, plainChar_glyph]
      cases operator <;> rfl
  | none =>
      have noGlyph : ∀ operator : Operator, c ≠ operator.glyph := by
        rintro operator rfl
        rw [Operator.ofGlyph?_glyph] at read
        cases read
      have noMinus : c ≠ '−' := noGlyph .minus
      have noTimes : c ≠ '×' := noGlyph .times
      have noDivide : c ≠ '÷' := noGlyph .divide
      rw [plainChar, read, Option.elim_none, if_neg noMinus, if_neg noTimes, if_neg noDivide]

/-- A text without these glyphs is not changed. -/
theorem map_plainChar_eq_self {text : Text} (glyphFree : ∀ c ∈ text, c ∉ ['−', '×', '÷']) :
    text.map plainChar = text := by
  have same : ∀ c ∈ text, plainChar c = id c := by
    intro c member
    have noGlyph := glyphFree c member
    simp only [List.mem_cons, List.not_mem_nil, or_false, not_or] at noGlyph
    rw [plainChar_eq, if_neg noGlyph.1, if_neg noGlyph.2.1, if_neg noGlyph.2.2, id_eq]
  rw [List.map_congr_left same, List.map_id]

namespace Entry

theorem IsNumeral.isBlank_eq_false {whole text : Text} (numeral : IsNumeral whole text) :
    ∀ c ∈ text, isBlank c = false :=
  fun c member => isBlank_eq_false_of_isLiteralChar (numeral.grows.chars c member)

theorem IsComplete.isBlank_eq_false {text : Text} (complete : IsComplete text) :
    ∀ c ∈ text, isBlank c = false := by
  induction complete with
  | unsigned numeral _ => exact numeral.isBlank_eq_false
  | signed numeral _ =>
      exact List.forall_mem_cons.mpr ⟨isBlank_glyph .minus, numeral.isBlank_eq_false⟩
  | extend operator _ _ numeral inductionHypothesis =>
      exact List.forall_mem_append.mpr ⟨inductionHypothesis,
        List.forall_mem_cons.mpr ⟨isBlank_glyph operator, numeral.isBlank_eq_false⟩⟩
  | extendSigned operator _ _ numeral inductionHypothesis =>
      exact List.forall_mem_append.mpr ⟨inductionHypothesis,
        List.forall_mem_cons.mpr ⟨isBlank_glyph operator,
          List.forall_mem_cons.mpr ⟨isBlank_glyph .minus, numeral.isBlank_eq_false⟩⟩⟩

/-- A text that can be typed has no blanks. -/
theorem IsTyped.isBlank_eq_false {text : Text} (typed : IsTyped text) :
    ∀ c ∈ text, isBlank c = false := by
  cases typed with
  | sign => simp
  | complete complete => exact complete.isBlank_eq_false
  | operator operator complete _ =>
      exact List.forall_mem_append.mpr ⟨complete.isBlank_eq_false, by simp⟩
  | operatorSign operator complete _ =>
      exact List.forall_mem_append.mpr ⟨complete.isBlank_eq_false, by simp⟩

end Entry

/-! ## Texts of values -/

namespace Amount

/-- Signed digits are in ASCII. -/
theorem map_plainChar_signed {digits : Text} (chars : ∀ c ∈ digits, isLiteralChar c = true)
    (negative : Bool) : (signed negative digits).map plainChar = signed negative digits := by
  have same : digits.map plainChar = digits := by
    rw [← plain_eq_map fun c member => isBlank_eq_false_of_isLiteralChar (chars c member)]
    exact plain_eq_self_of_isLiteralChar chars
  cases negative with
  | false => exact same
  | true => exact congrArg (List.cons '-') same

theorem map_plainChar_plainText (x : Float) : (plainText x).map plainChar = plainText x := by
  obtain ⟨negative, number, equal⟩ := exists_plainText_eq x
  rw [equal]
  exact map_plainChar_signed (isNumeral_trimmedText plainPlaces number).grows.chars negative

theorem map_plainChar_centsText (x : Float) : (centsText x).map plainChar = centsText x := by
  unfold centsText
  split
  · decide
  · exact map_plainChar_signed (isLiteralChar_fixedText 2 (rounded 2 x)) _

end Amount

/-! ## Sessions -/

namespace Session

section Reports

variable {settings others : Settings}

/-- A report depends on nothing but the spelling of the operators. -/
theorem report_congr (same : settings.asciiOperators = others.asciiOperators) (pad : Pad) :
    report settings pad = report others pad := by
  rw [report, report, same]

/-- A report in ASCII is the other report with its glyphs in ASCII. -/
theorem report_eq_map (isAscii : settings.asciiOperators = true)
    (isGlyph : others.asciiOperators = false) {pad : Pad} (typed : Entry.IsTyped pad.entry) :
    report settings pad = (report others pad).map plainChar := by
  have pending : "  (pending, last value ".toList.map plainChar =
      "  (pending, last value ".toList := by decide
  have equals : "  = ".toList.map plainChar = "  = ".toList := by decide
  have notice : ("Error, ".toList ++ Fault.notice ++ ['\n']).map plainChar =
      "Error, ".toList ++ Fault.notice ++ ['\n'] := by decide
  have entryEq := plain_eq_map typed.isBlank_eq_false
  have centsEq : pad.amountText.map plainChar = pad.amountText :=
    Amount.map_plainChar_centsText pad.value
  simp only [report, isAscii, isGlyph, if_true, Bool.false_eq_true, if_false, List.map_append,
    entryEq, apply_ite (List.map plainChar), pending, equals, notice, centsEq,
    Amount.map_plainChar_plainText]
  rfl

theorem reports_congr (same : settings.asciiOperators = others.asciiOperators)
    (lines : List (List UInt8)) : reports settings lines = reports others lines :=
  List.map_congr_left fun _ _ => report_congr same _

theorem reports_eq_map (isAscii : settings.asciiOperators = true)
    (isGlyph : others.asciiOperators = false) (lines : List (List UInt8)) :
    reports settings lines = (reports others lines).map (List.map plainChar) := by
  rw [reports, reports, List.map_map]
  apply List.map_congr_left
  intro soFar _
  exact report_eq_map isAscii isGlyph (Pad.isTyped_entry_run Entry.isTyped_zero _)

/-- Two sessions with the same prompt end alike.  They print the same if they spell
operators alike, and otherwise the one in ASCII prints the glyphs of the other in
ASCII. -/
theorem run_of_prompt_eq (same : settings.prompt = others.prompt) (input : List UInt8) :
    (run settings input).exit = (run others input).exit ∧
      (settings.asciiOperators = others.asciiOperators →
        (run settings input).output = (run others input).output) ∧
      ((∀ c ∈ settings.prompt, c ∉ ['−', '×', '÷']) → settings.asciiOperators = true →
        others.asciiOperators = false →
          (run settings input).output = (run others input).output.map plainChar) := by
  rw [run_eq, run_eq]
  refine ⟨rfl, ?_, ?_⟩
  · intro sameSpelling
    simp only [same, reports_congr sameSpelling]
  · intro glyphFree isAscii isGlyph
    have promptEq := map_plainChar_eq_self glyphFree
    rw [same] at promptEq
    simp only [reports_eq_map isAscii isGlyph, same, List.map_append, List.map_flatMap,
      List.flatMap_map, promptEq]

end Reports

end Session

/-! ## Invocations -/

namespace CommandLine

section Starts

variable {invocation : Invocation} {settings : Settings}

theorem respond_eq_perform {options : Options}
    (isRun : read invocation.arguments = some (.run options)) (input : List UInt8) :
    invocation.respond input = perform options (invocation.settingsFile options) input := by
  rw [Invocation.respond, respond, isRun, Invocation.settingsFile]
  cases chosen : options.settings <;> simp only [chosen]

/-- An invocation without an expression starts a session. -/
theorem Invocation.Starts.respond_eq_run (starts : invocation.Starts none settings)
    (input : List UInt8) : invocation.respond input = Session.run settings input := by
  obtain ⟨options, isRun, noExpression, loaded⟩ := starts
  rw [respond_eq_perform isRun, perform, loaded]
  simp only [noExpression]

/-- An expression is calculated whatever the settings and the input. -/
theorem Invocation.Starts.respond_eq_calculateOnce {expression : Text}
    (starts : invocation.Starts (some expression) settings) (input : List UInt8) :
    invocation.respond input = calculateOnce expression := by
  obtain ⟨options, isRun, hasExpression, loaded⟩ := starts
  rw [respond_eq_perform isRun, perform, loaded]
  simp only [hasExpression]

end Starts

/-- An empty document has the defaults. -/
theorem read?_nil : Settings.read? [] = some {} := by
  have noStatements : Toml.statements? [] = some [] := by
    rw [Toml.statements?, if_pos rfl]
  have emptyTable : Toml.read? [] = some [] := by
    simp only [Toml.read?, Toml.skipByteOrderMark, noStatements]
    rfl
  rw [Settings.read?, emptyTable]
  rfl

/-- An empty settings file is as good as none. -/
theorem loadSettings_empty (path : Text) :
    loadSettings (some ⟨path, some []⟩) = loadSettings none := by
  simp only [loadSettings, SettingsFile.load, read?_nil]

theorem perform_congr {file other : Option SettingsFile}
    (same : loadSettings file = loadSettings other) (options : Options) (input : List UInt8) :
    perform options file input = perform options other input := by
  rw [perform, perform, same]

/-- Two sessions with the same prompt and the same input end alike.  Their outputs are
the same if they spell operators alike, and otherwise the one in ASCII is the other with
its glyphs in ASCII.  The value of one expression depends neither on the settings nor on
the input.  An empty default file is as good as none. -/
theorem respond_of_settings :
    (∀ (first second : Invocation) (settings others : Settings),
        first.Starts none settings → second.Starts none others →
          settings.prompt = others.prompt → ∀ input,
            (first.respond input).exit.status = (second.respond input).exit.status ∧
            (settings.asciiOperators = others.asciiOperators →
              (first.respond input).output = (second.respond input).output) ∧
            ((∀ c ∈ settings.prompt, c ∉ ['−', '×', '÷']) → settings.asciiOperators = true →
              others.asciiOperators = false →
                (first.respond input).output = (second.respond input).output.map fun c =>
                  if c = '−' then '-' else if c = '×' then '*' else if c = '÷' then '/' else c)) ∧
      (∀ (first second : Invocation) (settings others : Settings) (expression : Text),
        first.Starts (some expression) settings → second.Starts (some expression) others →
          ∀ input other, first.respond input = second.respond other) ∧
      ∀ (arguments : List Text) (named : Text → Option Text) (path : Text) (input : List UInt8),
        respond arguments named none input =
          respond arguments named (some ⟨path, some []⟩) input := by
  refine ⟨?_, ?_, ?_⟩
  · intro first second settings others starts startsOther samePrompt input
    obtain ⟨sameExit, sameOutput, asciiOutput⟩ := Session.run_of_prompt_eq samePrompt input
    rw [starts.respond_eq_run, startsOther.respond_eq_run]
    refine ⟨congrArg Exit.status sameExit, sameOutput, ?_⟩
    rw [← funext plainChar_eq]
    exact asciiOutput
  · intro first second settings others expression starts startsOther input other
    rw [starts.respond_eq_calculateOnce, startsOther.respond_eq_calculateOnce]
  · intro arguments named path input
    have sameSettings := loadSettings_empty path
    simp only [respond, perform_congr sameSettings]

/-- A product and a quotient in three sessions, and a sum that is calculated at once. -/
theorem respond_of_settings_of_product :
    let named : Text → Option Text := fun path =>
      if path = "ascii".toList then some "ascii_operators = true".toList
      else some "log = \"off\"".toList
    let glyphs : Invocation := ⟨[], named, none⟩
    let ascii : Invocation := ⟨["-c".toList, "ascii".toList], named, none⟩
    let quiet : Invocation := ⟨["--config=quiet".toList], named, none⟩
    let sum : Invocation := ⟨["-e1+2".toList], named, none⟩
    let asciiSum : Invocation := ⟨["-e1+2".toList, "-cascii".toList], named, none⟩
    let input := Session.encode "3×4÷−2\n÷\n".toList
    (glyphs.Starts none {} ∧ ascii.Starts none { asciiOperators := true } ∧
        quiet.Starts none { log := "off".toList }) ∧
      ((glyphs.respond input).output =
          "> 3×4÷−2  = -6\n> 3×4÷−2÷  (pending, last value -6.00)\n> ".toList ∧
        (quiet.respond input).output = (glyphs.respond input).output ∧
        (ascii.respond input).output =
          "> 3*4/-2  = -6\n> 3*4/-2/  (pending, last value -6.00)\n> ".toList ∧
        (ascii.respond input).exit.status = (glyphs.respond input).exit.status) ∧
      (sum.Starts (some "1+2".toList) {} ∧
        asciiSum.Starts (some "1+2".toList) { asciiOperators := true }) ∧
      sum.respond [] = asciiSum.respond input := by
  intro named glyphs ascii quiet sum asciiSum input
  have startsGlyphs : glyphs.Starts none {} := ⟨{}, rfl, rfl, rfl⟩
  have startsAscii : ascii.Starts none { asciiOperators := true } :=
    ⟨{ settings := some "ascii".toList }, by decide, rfl, by decide +kernel⟩
  have startsQuiet : quiet.Starts none { log := "off".toList } :=
    ⟨{ settings := some "quiet".toList }, by decide, rfl, by decide +kernel⟩
  have startsSum : sum.Starts (some "1+2".toList) {} :=
    ⟨{ expression := some "1+2".toList }, by decide, rfl, rfl⟩
  have startsAsciiSum : asciiSum.Starts (some "1+2".toList) { asciiOperators := true } :=
    ⟨{ settings := some "ascii".toList, expression := some "1+2".toList }, by decide, rfl,
      by decide +kernel⟩
  have printed : (glyphs.respond input).output =
      "> 3×4÷−2  = -6\n> 3×4÷−2÷  (pending, last value -6.00)\n> ".toList := by
    decide +kernel
  have glyphFree : ∀ c ∈ "> ".toList, c ∉ ['−', '×', '÷'] := by simp
  obtain ⟨sessions, calculations, _⟩ := respond_of_settings
  obtain ⟨_, sameOutput, _⟩ := sessions quiet glyphs _ _ startsQuiet startsGlyphs rfl input
  obtain ⟨sameStatus, _, asciiOutput⟩ :=
    sessions ascii glyphs _ _ startsAscii startsGlyphs rfl input
  refine ⟨⟨startsGlyphs, startsAscii, startsQuiet⟩, ⟨printed, sameOutput rfl, ?_, sameStatus⟩,
    ⟨startsSum, startsAsciiSum⟩, calculations sum asciiSum _ _ _ startsSum startsAsciiSum [] input⟩
  rw [asciiOutput glyphFree rfl rfl, printed]
  decide

end CommandLine

end AmountPad
