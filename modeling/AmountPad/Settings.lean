import AmountPad.Toml.Document

/-!
# Settings

Settings are kept in a TOML document.  Each known key that the document assigns
replaces a default; all other keys and tables are left unread.  A known key with
a value of the wrong kind spoils the whole document.
-/

namespace AmountPad

/-- How a session presents itself. -/
structure Settings where
  /-- Shown before every line of input. -/
  prompt : Text := "> ".toList
  /-- Whether operators are printed in ASCII. -/
  asciiOperators : Bool := false
  /-- What is logged.  No output depends on it. -/
  log : Text := "warn".toList
  deriving DecidableEq, Repr

namespace Settings

/-- The text of a key, or the given one where the key is absent. -/
def text? (table : Toml.Table) (key absent : Text) : Option Text :=
  match table.get? key with
  | none => some absent
  | some (.string text) => some text
  | some _ => none

/-- The flag of a key, or the given one where the key is absent. -/
def flag? (table : Toml.Table) (key : Text) (absent : Bool) : Option Bool :=
  match table.get? key with
  | none => some absent
  | some (.boolean flag) => some flag
  | some _ => none

/-- The settings of a document's root table. -/
def ofTable? (table : Toml.Table) : Option Settings := do
  let defaults : Settings := {}
  let prompt ← text? table "prompt".toList defaults.prompt
  let asciiOperators ←
    flag? table "ascii_operators".toList defaults.asciiOperators
  let log ← text? table "log".toList defaults.log
  return { prompt, asciiOperators, log }

/-- The settings that a document describes. -/
def read? (document : Text) : Option Settings :=
  (Toml.read? document).bind ofTable?

end Settings

end AmountPad
