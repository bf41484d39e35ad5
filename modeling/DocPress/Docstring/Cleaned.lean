import DocPress.Text.Basic

/-!
# Cleaned docstrings

A docstring is indented like the code around it.  Cleaning expands tabs, takes
the common margin of all lines but the first away, and drops blank lines at
both ends.
-/

namespace DocPress.Docstring

open Text

/-- Tabs as blanks up to the next multiple of eight columns. -/
def expandTabs : Nat → Text → Text
  | _, [] => []
  | column, c :: rest =>
      if c = '\t' then
        let width := 8 - column % 8
        List.replicate width ' ' ++ expandTabs (column + width) rest
      else if c = '\n' || c = '\r' then c :: expandTabs 0 rest
      else c :: expandTabs (column + 1) rest

/-- The indentation of a line. -/
def indentation (line : Text) : Nat := line.length - (trimLeft line).length

/-- The common margin of lines; lines of blanks only do not count. -/
def margin (lines : List Text) : Nat :=
  (((lines.filter fun l => !isAllBlank l).map indentation).min?).getD 0

/-- Lines without the empty ones at both ends. -/
def dropEmptyEnds (lines : List Text) : List Text :=
  (((lines.reverse.dropWhile List.isEmpty).reverse).dropWhile List.isEmpty)

/-- A docstring without the indentation of the code around it. -/
def cleaned (t : Text) : Text :=
  match splitAt '\n' (expandTabs 0 t) with
  | [] => []
  | first :: others =>
      join ['\n'] (dropEmptyEnds (trimLeft first :: others.map (List.drop (margin others))))

end DocPress.Docstring
