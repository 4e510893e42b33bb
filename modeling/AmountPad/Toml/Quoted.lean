import AmountPad.Toml.Layout

/-!
# Quoted texts of a TOML document

A text stands in double quotes, where a backslash starts an escape, or in single
quotes, where every character stands for itself.  Three quotes on each side let
the text go over several lines.

Reading a quoted text first cuts it off at its closing quotes and then takes the
escapes out of what was cut.
-/

namespace AmountPad.Toml

/-- Puts a character in front of a text that was cut off. -/
def prepend (c : Char) (cut : Text × Text) : Text × Text :=
  (c :: cut.1, cut.2)

/-! ## Cutting -/

/-- Cuts a text at the first quote.  Where there are escapes, a quote after a
backslash is not the one. -/
def cutLine (quote : Char) (hasEscapes isEscaped : Bool) :
    Text → Option (Text × Text)
  | [] => none
  | c :: rest =>
      if !isEscaped && c = quote then some ([], rest)
      else
        (cutLine quote hasEscapes (hasEscapes && !isEscaped && c = '\\') rest).map
          (prepend c)

/-- Three quotes close a text over several lines.  Up to two quotes directly
before them belong to it. -/
def closing? (quote : Char) (text : Text) : Option (Text × Text) :=
  let count := (text.takeWhile (· = quote)).length
  if count < 3 then none
  else
    let used := min count 5
    some (List.replicate (used - 3) quote, text.drop used)

/-- Cuts a text at its closing quotes. -/
def cutLines (quote : Char) (hasEscapes isEscaped : Bool) :
    Text → Option (Text × Text)
  | [] => none
  | c :: rest =>
      match if isEscaped then none else closing? quote (c :: rest) with
      | some cut => some cut
      | none =>
          (cutLines quote hasEscapes (hasEscapes && !isEscaped && c = '\\') rest).map
            (prepend c)

/-! ## Escapes -/

/-- The escapes of one letter. -/
def letterEscape? : Char → Option Char
  | 'b' => some '\x08'
  | 't' => some '\t'
  | 'n' => some '\n'
  | 'f' => some '\x0c'
  | 'r' => some '\r'
  | 'e' => some '\x1b'
  | '"' => some '"'
  | '\\' => some '\\'
  | _ => none

/-- The value of a hexadecimal digit, in either case. -/
def hexValue? (c : Char) : Option Nat :=
  if c.isDigit then some (c.toNat - '0'.toNat)
  else if 'a' ≤ c && c ≤ 'f' then some (c.toNat - 'a'.toNat + 10)
  else if 'A' ≤ c && c ≤ 'F' then some (c.toNat - 'A'.toNat + 10)
  else none

/-- The character of a code point, if there is one. -/
def ofCode? (code : Nat) : Option Char :=
  if valid : code.isValidChar then some (Char.ofNatAux code valid) else none

/-- What a text with escapes is in the middle of. -/
inductive Unescaping where
  /-- Between characters.  After a line end that a backslash has taken out, the
  blanks and line ends that follow are taken out too. -/
  | between (afterFold : Bool)
  /-- After a backslash. -/
  | begun
  /-- After a backslash and blanks, before the line end that they take out. -/
  | folding
  /-- In a code point, with so many digits to come after the next one. -/
  | code (more value : Nat)
  deriving DecidableEq, Repr

/-- A character of a line end. -/
def isLineEndChar (c : Char) : Bool :=
  c = '\n' || c = '\r'

/-- Whether every carriage return stands directly before a line feed. -/
def hasWholeLineEnds : Text → Bool
  | [] => true
  | c :: rest => (c ≠ '\r' || rest.head? = some '\n') && hasWholeLineEnds rest

/-- Takes the escapes out of a text with whole line ends, which may stand only in
a text over several lines and stay as they are written. -/
def unescape (isMultiline : Bool) : Unescaping → Text → Option Text
  | .between _, [] => some []
  | _, [] => none
  | .between afterFold, c :: rest =>
      if afterFold && (isSpace c || isLineEndChar c) then
        unescape isMultiline (.between true) rest
      else if c = '\\' then unescape isMultiline .begun rest
      else if isPlainChar c || (isMultiline && isLineEndChar c) then
        (unescape isMultiline (.between false) rest).map (c :: ·)
      else none
  | .begun, c :: rest =>
      if c = 'x' then unescape isMultiline (.code 1 0) rest
      else if c = 'u' then unescape isMultiline (.code 3 0) rest
      else if c = 'U' then unescape isMultiline (.code 7 0) rest
      else if isMultiline && c = '\n' then
        unescape isMultiline (.between true) rest
      else if isMultiline && (isSpace c || c = '\r') then
        unescape isMultiline .folding rest
      else
        match letterEscape? c with
        | some escaped =>
            (unescape isMultiline (.between false) rest).map (escaped :: ·)
        | none => none
  | .folding, c :: rest =>
      if c = '\n' then unescape isMultiline (.between true) rest
      else if isSpace c || c = '\r' then unescape isMultiline .folding rest
      else none
  | .code more value, c :: rest =>
      match hexValue? c with
      | none => none
      | some digit =>
          match more with
          | more + 1 => unescape isMultiline (.code more (16 * value + digit)) rest
          | 0 =>
              match ofCode? (16 * value + digit) with
              | some escaped =>
                  (unescape isMultiline (.between false) rest).map (escaped :: ·)
              | none => none

/-! ## The four kinds of quoted text

Each function reads what follows the opening quotes, and returns the text and
what follows the closing ones. -/

/-- In double quotes, on one line. -/
def basicLine? (text : Text) : Option (Text × Text) :=
  match cutLine '"' true false text with
  | none => none
  | some (raw, rest) => (unescape false (.between false) raw).map (·, rest)

/-- In single quotes, on one line. -/
def literalLine? (text : Text) : Option (Text × Text) :=
  match cutLine '\'' false false text with
  | none => none
  | some (raw, rest) => if raw.all isPlainChar then some (raw, rest) else none

/-- A line end directly after the opening quotes is left out. -/
def skipFirstLineEnd (text : Text) : Text :=
  (newline? text).getD text

/-- In three double quotes.  Line ends stay as they are written. -/
def basicLines? (text : Text) : Option (Text × Text) :=
  match cutLines '"' true false (skipFirstLineEnd text) with
  | none => none
  | some (raw, rest) =>
      if hasWholeLineEnds raw then (unescape true (.between false) raw).map (·, rest)
      else none

/-- In three single quotes.  Line ends stay as they are written. -/
def literalLines? (text : Text) : Option (Text × Text) :=
  match cutLines '\'' false false (skipFirstLineEnd text) with
  | none => none
  | some (raw, rest) =>
      if hasWholeLineEnds raw && raw.all fun c => isPlainChar c || isLineEndChar c
      then some (raw, rest)
      else none

example :
    basicLine? "a\\u00e9\\xE9\\e\\\"\" # rest".toList =
      some ("aéé\x1b\"".toList, " # rest".toList) := by
  decide

example :
    basicLines? "\n a \\  \r\n\n  b\r\n\"\"\"\"\"!".toList =
      some (" a b\r\n\"\"".toList, "!".toList) := by
  decide

end AmountPad.Toml
