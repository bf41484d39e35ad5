import DocPress.Pdf.Block
import DocPress.Pdf.Typesetter
import DocPress.Pdf.Wrap

/-!
# Page layout

Lines are set from top to bottom at a fixed distance.  A new page is begun for
the first line, and whenever the next line would stand below the margin.  The
size of the paper and the lengths of lines are those of a typesetter.
-/

namespace DocPress.Pdf

open Text

/-- The settings of a printed document. -/
structure Settings where
  pageSize : Text
  fontSize : Float
  margin : Float

namespace Settings

/-- The settings of a document that asks for none. -/
def default : Settings := ⟨"a4".toList, 10, 50⟩

/-- The distance from line to line. -/
def lineHeight (s : Settings) : Float := s.fontSize * 1.4

end Settings

/-- The indentation of one level. -/
def indentStep : Float := 14

/-- A line of text in its place. -/
structure PlacedLine where
  x : Float
  y : Float
  font : Font
  text : Text

/-- The pages set so far and the height of the next line. -/
structure Layout where
  pages : List (List PlacedLine)
  y : Float

namespace Layout

variable (t : Typesetter) (s : Settings)

/-- Nothing is set yet. -/
def empty : Layout := ⟨[], 0⟩

/-- Pages with one more line on the last one. -/
def addToLast (line : PlacedLine) : List (List PlacedLine) → List (List PlacedLine)
  | [] => [[line]]
  | [page] => [page ++ [line]]
  | page :: more => page :: addToLast line more

/-- Whether the next line needs a new page. -/
def needsPage (l : Layout) : Bool :=
  l.pages.isEmpty || l.y > Float.ofInt (t.paper s.pageSize).height - s.margin

/-- Set one line. -/
def place (font : Font) (x : Float) (l : Layout) (text : Text) : Layout :=
  if l.needsPage t s then
    let y := s.margin + s.fontSize
    ⟨l.pages ++ [[⟨x, y, font, text⟩]], y + s.lineHeight⟩
  else ⟨addToLast ⟨x, l.y, font, text⟩ l.pages, l.y + s.lineHeight⟩

/-- Whether a line is too wide at an indentation. -/
def tooWide (font : Font) (indent : Float) (line : Text) : Bool :=
  let x := s.margin + indent
  t.length font s.fontSize line > Float.ofInt (t.paper s.pageSize).width - x - s.margin

/-- Set a text, wrapped. -/
def write (font : Font) (indent : Float) (l : Layout) (text : Text) : Layout :=
  (wrap (tooWide t s font indent) text).foldl (place t s font (s.margin + indent)) l

/-- Leave half a line free. -/
def gap (l : Layout) : Layout := { l with y := l.y + s.lineHeight / 2 }

/-- Set a block: its label, its text one level further in, and a gap. -/
def writeBlock (l : Layout) (b : TextBlock) : Layout :=
  let indent := b.depth.toFloat * indentStep
  let l := l.write t s .label indent b.label
  let l := if b.text.isEmpty then l else l.write t s .body (indent + indentStep) b.text
  l.gap s

/-- Set all blocks of a document. -/
def ofBlocks (blocks : List TextBlock) : Layout := blocks.foldl (writeBlock t s) empty

end Layout

/-- The pages of a project. -/
def pages (t : Typesetter) (s : Settings) (p : Project) : List (List PlacedLine) :=
  (Layout.ofBlocks t s (blocks p)).pages

end DocPress.Pdf
