import AmountPad.Entry

/-!
# Editing a text

A text is edited by typing characters and by taking them back, one at a time or all at
once.  Two characters that have the same key are the same to a text, whatever they look
like; so are two that have none.
-/

namespace AmountPad.Entry

/-- What can be done to a text. -/
inductive Edit where
  | type (c : Char)
  | erase
  | clear
  deriving DecidableEq, Repr

/-- The text after an edit. -/
def edit (text : Text) : Edit → Text
  | .type c => type text c
  | .erase => erase text
  | .clear => zero

/-- Two edits that type the same key, or that both take back the same. -/
inductive Edit.SameKey : Edit → Edit → Prop where
  | type {c d : Char} : Key.ofChar? c = Key.ofChar? d → SameKey (.type c) (.type d)
  | erase : SameKey .erase .erase
  | clear : SameKey .clear .clear

example : Edit.SameKey (.type '*') (.type '×') :=
  .type rfl

end AmountPad.Entry
