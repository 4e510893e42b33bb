import AmountPad.Toml.Bare

/-!
# Reading a TOML document

A document is a sequence of statements, each on lines of its own: an assignment,
the header of a table, or the header of a new row of an array of tables.  The
statements are read one after the other and applied to a table that is empty at
first.

The grammar is that of TOML 1.1, so an inline table may go over several lines
and end in a comma.  Brackets in values nest to a depth of `maxDepth`.
-/

namespace AmountPad.Toml

/-! ## Keys -/

/-- The characters of a bare key. -/
def isKeyChar (c : Char) : Bool :=
  c.isAlphanum || c = '-' || c = '_'

/-- Reads one key. -/
def key? : Text → Option (Text × Text)
  | '"' :: rest => basicLine? rest
  | '\'' :: rest => literalLine? rest
  | text =>
      let key := text.takeWhile isKeyChar
      if key = [] then none else some (key, text.dropWhile isKeyChar)

/-- Puts a key in front of a path. -/
def Path.cons (key : Text) (path : Path) : Path :=
  { path with parents := key :: path.parents }

/-- Reads the keys of a path, which points part, and the blanks after it. -/
def path? (text : Text) : Option (Path × Text) :=
  match key? text with
  | none => none
  | some (key, rest) =>
      match skipSpace rest with
      | '.' :: more =>
          if (skipSpace more).length < text.length then
            (path? (skipSpace more)).map fun (path, rest) => (path.cons key, rest)
          else none
      | rest => some (⟨[], key⟩, rest)
termination_by text.length

/-! ## Values -/

/-- Reads a value without brackets. -/
def simple? : Text → Option (Value × Text)
  | '"' :: '"' :: '"' :: rest =>
      (basicLines? rest).map fun (text, rest) => (.string text, rest)
  | '"' :: rest => (basicLine? rest).map fun (text, rest) => (.string text, rest)
  | '\'' :: '\'' :: '\'' :: rest =>
      (literalLines? rest).map fun (text, rest) => (.string text, rest)
  | '\'' :: rest =>
      (literalLine? rest).map fun (text, rest) => (.string text, rest)
  | text => bare? text

/-- Reads the items of an array up to its closing bracket.  Commas part them,
and one may follow the last. -/
def items? (read : Text → Option (Value × Text)) (text : Text) :
    Option (List Value × Text) :=
  match skipLayout false text with
  | ']' :: rest => some ([], rest)
  | start =>
      match read start with
      | none => none
      | some (item, rest) =>
          match skipLayout false rest with
          | ']' :: rest => some ([item], rest)
          | ',' :: rest =>
              if rest.length < text.length then
                (items? read rest).map fun (items, rest) => (item :: items, rest)
              else none
          | _ => none
termination_by text.length

/-- Reads the assignments of an inline table up to its closing brace.  Commas
part them, and one may follow the last.  Line ends and comments may stand wherever
a blank may, except inside a path. -/
def entries? (read : Text → Option (Value × Text)) (table : Table) (text : Text) :
    Option (Table × Text) :=
  match skipLayout false text with
  | '}' :: rest => some (table, rest)
  | start =>
      match path? start with
      | none => none
      | some (path, rest) =>
          match skipLayout false rest with
          | '=' :: rest =>
              match read (skipLayout false rest) with
              | none => none
              | some (value, rest) =>
                  match table.assign path value, skipLayout false rest with
                  | some table, '}' :: rest => some (table, rest)
                  | some table, ',' :: rest =>
                      if rest.length < text.length then entries? read table rest
                      else none
                  | _, _ => none
          | _ => none
termination_by text.length

/-- Reads a value whose brackets nest to the given depth. -/
def value? : Nat → Text → Option (Value × Text)
  | 0, text => simple? text
  | depth + 1, text =>
      match text with
      | '[' :: rest =>
          (items? (value? depth) rest).map fun (items, rest) =>
            (.array items, rest)
      | '{' :: rest =>
          (entries? (value? depth) [] rest).map fun (table, rest) =>
            (.table .inline table, rest)
      | text => simple? text

/-- How deep brackets may nest in a value. -/
def maxDepth : Nat :=
  80

/-! ## Statements -/

/-- A statement of a document. -/
inductive Statement where
  | assign (path : Path) (value : Value)
  | openTable (path : Path)
  | openRow (path : Path)

/-- Reads one statement, without the line end after it. -/
def statement? : Text → Option (Statement × Text)
  | '[' :: '[' :: rest =>
      match path? (skipSpace rest) with
      | some (path, ']' :: ']' :: rest) => some (.openRow path, rest)
      | _ => none
  | '[' :: rest =>
      match path? (skipSpace rest) with
      | some (path, ']' :: rest) => some (.openTable path, rest)
      | _ => none
  | text =>
      match path? text with
      | some (path, '=' :: rest) =>
          (value? maxDepth (skipSpace rest)).map fun (value, rest) =>
            (.assign path value, rest)
      | _ => none

/-- Reads the statements of a document. -/
def statements? (text : Text) : Option (List Statement) :=
  if text = [] then some []
  else
    match lineEnd? text with
    | some rest =>
        if rest.length < text.length then statements? rest else none
    | none =>
        match statement? (skipSpace text) with
        | none => none
        | some (statement, rest) =>
            match lineEnd? rest with
            | none => none
            | some rest =>
                if rest.length < text.length then
                  (statements? rest).map (statement :: ·)
                else none
termination_by text.length

/-! ## Documents -/

/-- A document, read so far. -/
structure Document where
  /-- All tables. -/
  root : Table := []
  /-- The path of the last header. -/
  header : List Text := []

namespace Document

/-- The document after one more statement. -/
def apply (document : Document) : Statement → Option Document
  | .assign path value =>
      (document.root.assignUnder document.header path value).map fun root =>
        { document with root }
  | .openTable path =>
      (document.root.openTable path).map fun root =>
        { root, header := path.parents ++ [path.key] }
  | .openRow path =>
      (document.root.openRow path).map fun root =>
        { root, header := path.parents ++ [path.key] }

end Document

/-- A text without the byte order mark it may start with. -/
def skipByteOrderMark : Text → Text
  | '\uFEFF' :: rest => rest
  | text => text

/-- The root table of a document. -/
def read? (text : Text) : Option Table :=
  match statements? (skipByteOrderMark text) with
  | none => none
  | some statements =>
      (statements.foldlM Document.apply {}).map Document.root

end AmountPad.Toml
