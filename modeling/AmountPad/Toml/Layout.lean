import AmountPad.Text

/-!
# Characters, blanks, comments and line ends of a TOML document

Blanks are spaces and tabs.  A comment runs from a number sign to the end of its
line.  A line ends in a line feed, which a carriage return may precede.
-/

namespace AmountPad.Toml

/-- A blank inside a line. -/
def isSpace (c : Char) : Bool :=
  c = ' ' || c = '\t'

/-- A character that may stand in a comment or a quoted text: a tab, or anything
but a control character. -/
def isPlainChar (c : Char) : Bool :=
  c = '\t' || (0x20 ≤ c.toNat && c.toNat ≠ 0x7F)

/-- A text without the blanks it starts with. -/
def skipSpace (text : Text) : Text :=
  text.dropWhile isSpace

/-- A text without the comment it starts with. -/
def skipComment : Text → Text
  | '#' :: rest => rest.dropWhile isPlainChar
  | text => text

/-- What follows a line end. -/
def newline? : Text → Option Text
  | '\n' :: rest => some rest
  | '\r' :: '\n' :: rest => some rest
  | _ => none

/-- What follows the rest of a line that holds no more than blanks and a
comment.  The last line needs no line end. -/
def lineEnd? (text : Text) : Option Text :=
  match skipComment (skipSpace text) with
  | [] => some []
  | rest => newline? rest

/-- A text without the blanks, comments and line ends it starts with. -/
def skipLayout (inComment : Bool) : Text → Text
  | [] => []
  | c :: rest =>
      if c = '\n' || (c = '\r' && rest.head? = some '\n') then
        skipLayout false rest
      else if inComment then
        if isPlainChar c then skipLayout true rest else c :: rest
      else if isSpace c then skipLayout false rest
      else if c = '#' then skipLayout true rest
      else c :: rest

end AmountPad.Toml
