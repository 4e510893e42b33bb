import AmountPad.Text

/-!
# Values and tables of a TOML document

A table keeps its keys in the order in which they were first assigned, and
remembers how it came to be, because that decides what may still be added to
it.  Of numbers with a fraction and of times only the kind is kept.
-/

namespace AmountPad.Toml

/-- How a table came to be. -/
inductive Origin where
  /-- Passed through by the path of a header. -/
  | implied
  /-- Named by a header. -/
  | header
  /-- Passed through by a dotted key. -/
  | dotted
  /-- Written in braces; nothing can be added to it. -/
  | inline
  deriving DecidableEq, Repr

/-- A value of a document. -/
inductive Value where
  | string (text : Text)
  | boolean (flag : Bool)
  | integer (number : Int)
  | real
  | moment
  | array (items : List Value)
  | table (origin : Origin) (entries : List (Text × Value))
  /-- The rows of an array of tables, the latest first. -/
  | rows (tables : List (List (Text × Value)))

/-- A table is the list of its entries. -/
abbrev Table := List (Text × Value)

/-- The keys that lead to an entry: through `parents` to `key`. -/
structure Path where
  parents : List Text
  key : Text
  deriving DecidableEq, Repr

namespace Table

/-- The value of a key. -/
def get? (table : Table) (key : Text) : Option Value :=
  table.lookup key

/-- Gives a key a value, in its old place if it had one. -/
def put (table : Table) (key : Text) (value : Value) : Table :=
  if (table.get? key).isSome then
    table.map fun entry => if entry.1 = key then (key, value) else entry
  else table ++ [(key, value)]

/-- Changes the table at the end of a path of keys.  Keys without a value get a
table; a header may go through every table that is not inline, and through the
last row of an array of tables; a dotted key may not go into a table that a
header has named. -/
def descend (isDotted : Bool) (change : Origin → Table → Option Table) :
    List Text → Origin → Table → Option Table
  | [], origin, table => change origin table
  | key :: path, _, table =>
      match table.get? key with
      | none =>
          let origin : Origin := if isDotted then .dotted else .implied
          (descend isDotted change path origin []).map fun inner =>
            table.put key (.table origin inner)
      | some (.table origin inner) =>
          if origin = .inline || (isDotted && origin = .header) then none
          else
            (descend isDotted change path origin inner).map fun inner =>
              table.put key (.table origin inner)
      | some (.rows (row :: earlier)) =>
          (descend isDotted change path .header row).map fun row =>
            table.put key (.rows (row :: earlier))
      | some _ => none

/-- Assigns a value to a path.  The key must be new, and a dotted key may add
only to tables that dotted keys have made. -/
def assign (table : Table) (path : Path) (value : Value) : Option Table :=
  descend true
    (fun origin inner =>
      if path.parents ≠ [] && origin ≠ .dotted then none
      else if (inner.get? path.key).isSome then none
      else some (inner.put path.key value))
    path.parents .header table

/-- Opens the table that a header names.  It must be new, or so far only implied
by other headers. -/
def openTable (table : Table) (path : Path) : Option Table :=
  descend false
    (fun _ inner =>
      match inner.get? path.key with
      | none => some (inner.put path.key (.table .header []))
      | some (.table .implied entries) =>
          some (inner.put path.key (.table .header entries))
      | some _ => none)
    path.parents .header table

/-- Opens a new row of the array of tables that a header names. -/
def openRow (table : Table) (path : Path) : Option Table :=
  descend false
    (fun _ inner =>
      match inner.get? path.key with
      | none => some (inner.put path.key (.rows [[]]))
      | some (.rows earlier) => some (inner.put path.key (.rows ([] :: earlier)))
      | some _ => none)
    path.parents .header table

/-- Assigns inside the table that the last header has opened. -/
def assignUnder (table : Table) (header : List Text) (path : Path)
    (value : Value) : Option Table :=
  descend false (fun _ inner => inner.assign path value) header .header table

end Table

end AmountPad.Toml
