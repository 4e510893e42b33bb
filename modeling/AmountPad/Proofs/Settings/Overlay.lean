import AmountPad.Proofs.Toml.Printer
import AmountPad.Settings.Overlay

/-!
# Reading settings

A table gives settings if no known key has a value of the wrong kind.  The table of a
document of assignments holds its assignments and nothing else, so such a document is an
overlay on the defaults, whatever the order of its lines and whatever other keys it has.
-/

namespace AmountPad.Settings

open Toml

/-! ## One key -/

section Key

variable {table : Table} {key absent : Text} {default : Bool}

theorem text?_eq_some_iff {text : Text} :
    text? table key absent = some text ↔
      table.get? key = some (.string text) ∨ text = absent ∧ table.get? key = none := by
  unfold text?
  split <;> rename_i found
  · simp [found, eq_comm]
  · simp [found]
  · rename_i _ noText
    simpa [found] using noText text

theorem flag?_eq_some_iff {flag : Bool} :
    flag? table key default = some flag ↔
      table.get? key = some (.boolean flag) ∨ flag = default ∧ table.get? key = none := by
  unfold flag?
  split <;> rename_i found
  · simp [found, eq_comm]
  · simp [found]
  · rename_i _ noFlag
    simpa [found] using noFlag flag

theorem text?_eq_none_iff :
    text? table key absent = none ↔
      ∃ value, table.get? key = some value ∧ ∀ text, value ≠ .string text := by
  unfold text?
  split <;> rename_i found
  · simp [found]
  · simp [found]
  · rename_i value noText
    exact iff_of_true rfl ⟨value, found, noText⟩

theorem flag?_eq_none_iff :
    flag? table key default = none ↔
      ∃ value, table.get? key = some value ∧ ∀ flag, value ≠ .boolean flag := by
  unfold flag?
  split <;> rename_i found
  · simp [found]
  · simp [found]
  · rename_i value noFlag
    exact iff_of_true rfl ⟨value, found, noFlag⟩

end Key

/-! ## All keys -/

theorem ofTable?_eq (table : Table) :
    ofTable? table = (text? table "prompt".toList "> ".toList).bind fun prompt =>
      (flag? table "ascii_operators".toList false).bind fun asciiOperators =>
        (text? table "log".toList "warn".toList).map fun log =>
          { prompt, asciiOperators, log } := by
  unfold ofTable?
  simp only [bind, Option.map_eq_bind]
  rfl

theorem ofTable?_eq_some_iff {table : Table} {settings : Settings} :
    ofTable? table = some settings ↔
      text? table "prompt".toList "> ".toList = some settings.prompt ∧
        flag? table "ascii_operators".toList false = some settings.asciiOperators ∧
        text? table "log".toList "warn".toList = some settings.log := by
  obtain ⟨prompt, asciiOperators, log⟩ := settings
  simp only [ofTable?_eq, Option.bind_eq_some_iff, Option.map_eq_some_iff, mk.injEq]
  constructor
  · rintro ⟨_, promptEq, _, flagEq, _, logEq, rfl, rfl, rfl⟩
    exact ⟨promptEq, flagEq, logEq⟩
  · rintro ⟨promptEq, flagEq, logEq⟩
    exact ⟨_, promptEq, _, flagEq, _, logEq, rfl, rfl, rfl⟩

/-- A table gives no settings just if a known key has a value of the wrong kind. -/
theorem ofTable?_eq_none_iff {table : Table} :
    ofTable? table = none ↔ ∃ key value, table.get? key = some value ∧ IsMistyped key value := by
  have parts : ofTable? table = none ↔
      text? table "prompt".toList "> ".toList = none ∨
        flag? table "ascii_operators".toList false = none ∨
        text? table "log".toList "warn".toList = none := by
    rw [ofTable?_eq]
    cases text? table "prompt".toList "> ".toList with
    | none => simp only [Option.bind_none, true_or]
    | some prompt =>
        cases flag? table "ascii_operators".toList false <;>
          simp only [Option.bind_some, Option.bind_none, Option.map_eq_none_iff, reduceCtorEq,
            false_or, true_or]
  rw [parts, text?_eq_none_iff, flag?_eq_none_iff, text?_eq_none_iff]
  constructor
  · rintro (⟨value, found, noText⟩ | ⟨value, found, noFlag⟩ | ⟨value, found, noText⟩)
    · exact ⟨_, value, found, .prompt noText⟩
    · exact ⟨_, value, found, .asciiOperators noFlag⟩
    · exact ⟨_, value, found, .log noText⟩
  · rintro ⟨key, value, found, isMistyped⟩
    cases isMistyped with
    | prompt noText => exact .inl ⟨value, found, noText⟩
    | asciiOperators noFlag => exact .inr (.inl ⟨value, found, noFlag⟩)
    | log noText => exact .inr (.inr ⟨value, found, noText⟩)

/-! ## Documents of assignments -/

section Documents

variable {assignments : List Assignment} (distinct : (assignments.map Assignment.key).Nodup)

include distinct

theorem text?_entries_eq_some_iff {key absent text : Text} :
    text? (assignments.map Assignment.entry) key absent = some text ↔
      Gives assignments key .string absent text := by
  rw [text?_eq_some_iff, get?_entries_eq_none_iff]
  exact or_congr_left (get?_entries_eq_toValue_iff distinct (.string text))

theorem flag?_entries_eq_some_iff {key : Text} {default flag : Bool} :
    flag? (assignments.map Assignment.entry) key default = some flag ↔
      Gives assignments key .boolean default flag := by
  rw [flag?_eq_some_iff, get?_entries_eq_none_iff]
  exact or_congr_left (get?_entries_eq_toValue_iff distinct (.boolean flag))

theorem ofTable?_entries_eq_some_iff {settings : Settings} :
    ofTable? (assignments.map Assignment.entry) = some settings ↔
      IsOverlay assignments settings := by
  rw [ofTable?_eq_some_iff, text?_entries_eq_some_iff distinct,
    flag?_entries_eq_some_iff distinct, text?_entries_eq_some_iff distinct]
  constructor
  · rintro ⟨prompt, asciiOperators, log⟩
    exact ⟨prompt, asciiOperators, log⟩
  · rintro ⟨prompt, asciiOperators, log⟩
    exact ⟨prompt, asciiOperators, log⟩

theorem ofTable?_entries_eq_none_iff :
    ofTable? (assignments.map Assignment.entry) = none ↔
      ∃ assignment ∈ assignments, IsMistyped assignment.key assignment.value.toValue := by
  simp only [ofTable?_eq_none_iff, get?_entries_eq_some_iff distinct]
  constructor
  · rintro ⟨_, _, ⟨assignment, member, rfl, rfl⟩, isMistyped⟩
    exact ⟨assignment, member, isMistyped⟩
  · rintro ⟨assignment, member, isMistyped⟩
    exact ⟨_, _, ⟨assignment, member, rfl, rfl⟩, isMistyped⟩

end Documents

theorem read?_eq_none_of_isMistyped {text : Text} {table : Table}
    (tableEq : Toml.read? text = some table) {key : Text} {value : Value}
    (found : table.get? key = some value) (isMistyped : IsMistyped key value) :
    read? text = none := by
  rw [read?, tableEq]
  exact ofTable?_eq_none_iff.mpr ⟨key, value, found, isMistyped⟩

/-- A document of assignments is read as an overlay on the defaults.  It is refused just if
a key is assigned twice or a known key gets a value of the wrong kind, and such a value
spoils every other document as well. -/
theorem read?_overlay {assignments : List Assignment} {text : Text}
    (isDocument : IsDocument assignments text) :
    (∀ settings, read? text = some settings ↔
      (assignments.map Assignment.key).Nodup ∧ IsOverlay assignments settings) ∧
    (read? text = none ↔ ¬(assignments.map Assignment.key).Nodup ∨
      ∃ assignment ∈ assignments, IsMistyped assignment.key assignment.value.toValue) ∧
    ∀ other table, Toml.read? other = some table →
      ∀ key value, table.get? key = some value → IsMistyped key value → read? other = none := by
  have spoils : ∀ other table, Toml.read? other = some table →
      ∀ key value, table.get? key = some value → IsMistyped key value → read? other = none :=
    fun _ _ tableEq _ _ found isMistyped =>
      read?_eq_none_of_isMistyped tableEq found isMistyped
  by_cases distinct : (assignments.map Assignment.key).Nodup
  · have readEq : read? text = ofTable? (assignments.map Assignment.entry) := by
      rw [read?, isDocument.read?_eq, if_pos distinct]
      rfl
    refine ⟨fun settings => ?_, ?_, spoils⟩
    · rw [readEq, ofTable?_entries_eq_some_iff distinct]
      exact (and_iff_right distinct).symm
    · rw [readEq, ofTable?_entries_eq_none_iff distinct]
      exact (or_iff_right (not_not_intro distinct)).symm
  · have readEq : read? text = none := by
      rw [read?, isDocument.read?_eq, if_neg distinct]
      rfl
    refine ⟨fun settings => ?_, iff_of_true readEq (.inl distinct), spoils⟩
    rw [readEq]
    exact iff_of_false (by simp) fun both => distinct both.1

/-- A document with escapes, keys in another order and keys that are no setting: the given
settings are read with their escapes undone, and the missing one keeps its default. -/
theorem read?_overlay_of_escapes :
    let assignments : List Assignment :=
      [⟨"log".toList, .string "a\"b\\c\n\u0001é".toList⟩, ⟨"x-1".toList, .integer (-70)⟩,
        ⟨"prompt".toList, .string "π> ".toList⟩, ⟨"_".toList, .boolean true⟩]
    IsDocument assignments (document assignments) ∧
      read? (document assignments) =
        some ⟨"π> ".toList, false, "a\"b\\c\n\u0001é".toList⟩ := by
  intro assignments
  have areBare : ∀ assignment ∈ assignments, IsBareKey assignment.key := by
    simp only [assignments, List.forall_mem_cons, List.not_mem_nil, false_imp_iff,
      implies_true, and_true]
    exact ⟨⟨by simp, List.all_eq_true.mp rfl⟩, ⟨by simp, List.all_eq_true.mp rfl⟩,
      ⟨by simp, List.all_eq_true.mp rfl⟩, by simp, List.all_eq_true.mp rfl⟩
  have isDocument : IsDocument assignments (document assignments) :=
    isDocument_document areBare (by simp [assignments, Scalar.IsShort])
  refine ⟨isDocument, ((read?_overlay isDocument).1 _).mpr ⟨by decide, ?_, ?_, ?_⟩⟩
  · exact .inl (by simp [assignments])
  · exact .inr ⟨rfl, by simp [assignments]⟩
  · exact .inl (by simp [assignments])

end AmountPad.Settings
