import DocPress.Text.Printable

/-!
# Quoted text

Text between quotation marks, in the form used by reports and type texts: the
quotation mark, the backslash and everything not printable are escaped.
-/

namespace DocPress.Text

/-- The quotation mark of a text: apostrophes, unless the text holds one and
no double quotation mark. -/
def quoteMark (t : Text) : Char :=
  if t.contains '\'' && !t.contains '"' then '"' else '\''

/-- One character between quotation marks. -/
def quoteChar (mark c : Char) : Text :=
  if c = mark || c = '\\' then ['\\', c]
  else if c = '\n' then ['\\', 'n']
  else if c = '\r' then ['\\', 'r']
  else if c = '\t' then ['\\', 't']
  else if isPrintable c then [c]
  else if c.toNat < 0x100 then '\\' :: 'x' :: hex 2 c.toNat
  else if c.toNat < 0x10000 then '\\' :: 'u' :: hex 4 c.toNat
  else '\\' :: 'U' :: hex 8 c.toNat

/-- A text between its quotation marks. -/
def quoted (t : Text) : Text :=
  let mark := quoteMark t
  mark :: t.flatMap (quoteChar mark) ++ [mark]

/-- A list of texts in square brackets. -/
def quotedList (ts : List Text) : Text :=
  '[' :: join [',', ' '] (ts.map quoted) ++ [']']

/-- A byte between quotation marks. -/
def quoteByte (mark : Char) (b : Nat) : Text :=
  let c := Char.ofNat b
  if c = mark || c = '\\' then ['\\', c]
  else if c = '\n' then ['\\', 'n']
  else if c = '\r' then ['\\', 'r']
  else if c = '\t' then ['\\', 't']
  else if 32 ≤ b && b < 127 then [c]
  else '\\' :: 'x' :: hex 2 b

/-- Bytes between quotation marks, after the letter that marks them. -/
def quotedBytes (bytes : List Nat) : Text :=
  let mark := quoteMark (bytes.map Char.ofNat)
  'b' :: mark :: bytes.flatMap (quoteByte mark) ++ [mark]

end DocPress.Text
