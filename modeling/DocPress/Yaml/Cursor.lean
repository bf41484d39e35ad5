import DocPress.Text.Basic

/-!
# Places in a document

A cursor is the text still to be read together with the place it starts at:
the number of characters before it, and its line and column.
-/

namespace DocPress.Yaml

/-- A place in a document. -/
structure Cursor where
  rest : Text
  index : Nat
  line : Nat
  column : Nat
deriving Inhabited

/-- Characters that end a line. -/
def isBreak (c : Char) : Bool :=
  c = '\r' || c = '\n' || c = '\x85' || c = '\u2028' || c = '\u2029'

/-- The mark of the end of the text. -/
def endMark : Char := '\x00'

/-- Line ends and the end of the text. -/
def isBreakOrEnd (c : Char) : Bool := c = endMark || isBreak c

/-- Blanks, line ends and the end of the text. -/
def isGap (c : Char) : Bool := c = ' ' || c = '\t' || isBreakOrEnd c

/-- Blanks and line ends without the tab. -/
def isSpaceOrEnd (c : Char) : Bool := c = ' ' || isBreakOrEnd c

/-- Characters of the names of anchors and tag handles. -/
def isWord (c : Char) : Bool := c.isAlphanum || c = '-' || c = '_'

namespace Cursor

/-- The start of a text. -/
def start (t : Text) : Cursor := ⟨t, 0, 0, 0⟩

/-- The character at a distance. -/
def peekAt (c : Cursor) (n : Nat) : Char := (c.rest[n]?).getD endMark

/-- The next character. -/
def peek (c : Cursor) : Char := c.peekAt 0

/-- The cursor after the next character. -/
def next (c : Cursor) : Cursor :=
  match c.rest with
  | [] => c
  | x :: rest =>
      if x = '\n' || x = '\x85' || x = '\u2028' || x = '\u2029'
          || (x = '\r' && rest.head? != some '\n') then
        ⟨rest, c.index + 1, c.line + 1, 0⟩
      else if x = '\ufeff' then ⟨rest, c.index + 1, c.line, c.column⟩
      else ⟨rest, c.index + 1, c.line, c.column + 1⟩

/-- The cursor after several characters. -/
def skip (c : Cursor) : Nat → Cursor
  | 0 => c
  | n + 1 => c.next.skip n

/-- The run of characters of a class at the cursor, and the cursor after it. -/
def run (c : Cursor) (p : Char → Bool) : Text × Cursor :=
  let word := c.rest.takeWhile p
  (word, c.skip word.length)

/-- The cursor after the blanks. -/
def skipBlanks (c : Cursor) : Cursor := (c.run (· = ' ')).2

/-- The cursor at the end of the line. -/
def toBreak (c : Cursor) : Cursor := (c.run fun x => !isBreakOrEnd x).2

/-- The line end at the cursor as it counts in a text, and the cursor after it;
no text when there is none. -/
def lineBreak (c : Cursor) : Text × Cursor :=
  let x := c.peek
  if x = '\r' && c.peekAt 1 = '\n' then (['\n'], c.skip 2)
  else if x = '\r' || x = '\n' || x = '\x85' then (['\n'], c.next)
  else if x = '\u2028' || x = '\u2029' then ([x], c.next)
  else ([], c)

/-- Whether one of the marks between documents stands at the cursor. -/
def atDocumentMark (c : Cursor) : Bool :=
  (['-', '-', '-'].isPrefixOf c.rest || ['.', '.', '.'].isPrefixOf c.rest) && isGap (c.peekAt 3)

end Cursor
end DocPress.Yaml
