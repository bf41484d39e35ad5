import DocPress.Text.Ranges
import DocPress.Yaml.Cursor

/-!
# Scalars

The text of a scalar in its five styles.  In all of them but the literal one
lines are folded: a single line end counts as a blank, further ones as
themselves.
-/

namespace DocPress.Yaml

open Text

/-! ### Quoted scalars -/

/-- Escapes of a single character. -/
def simpleEscape? (c : Char) : Option Char :=
  [('0', '\x00'), ('a', '\x07'), ('b', '\x08'), ('t', '\t'), ('\t', '\t'), ('n', '\n'),
    ('v', '\x0b'), ('f', '\x0c'), ('r', '\r'), ('e', '\x1b'), (' ', ' '), ('"', '"'),
    ('\\', '\\'), ('/', '/'), ('N', '\x85'), ('_', '\xa0'), ('L', '\u2028'),
    ('P', '\u2029')].lookup c

/-- The number of digits of an escape by code point. -/
def codeLength? (c : Char) : Option Nat := [('x', 2), ('u', 4), ('U', 8)].lookup c

/-- Further line ends inside a quoted scalar; a mark between documents is not
allowed there.  At most `fuel` line ends are read. -/
def quotedBreaks : Nat → Cursor → Option (Text × Cursor)
  | 0, _ => none
  | fuel + 1, c =>
      if c.atDocumentMark then none
      else
        let c := (c.run fun x => x = ' ' || x = '\t').2
        if isBreak c.peek then do
          let (b, c) := c.lineBreak
          let (more, c) ← quotedBreaks fuel c
          some (b ++ more, c)
        else some ([], c)

/-- Blanks and line ends inside a quoted scalar, folded. -/
def quotedSpaces (c : Cursor) : Option (Text × Cursor) :=
  let (blanks, c) := c.run fun x => x = ' ' || x = '\t'
  if c.peek = endMark then none
  else if isBreak c.peek then do
    let (b, c) := c.lineBreak
    let (more, c) ← quotedBreaks (c.rest.length + 1) c
    if b != ['\n'] then some (b ++ more, c)
    else if more.isEmpty then some ([' '], c)
    else some (more, c)
  else some (blanks, c)

/-- The body of a quoted scalar up to its closing mark.  At most `fuel`
characters are read. -/
def quotedBody (double : Bool) : Nat → Cursor → Option (Text × Cursor)
  | 0, _ => none
  | fuel + 1, c =>
      let x := c.peek
      let mark := if double then '"' else '\''
      if x = mark then
        if !double && c.peekAt 1 = '\'' then do
          let (t, c) ← quotedBody double fuel (c.skip 2)
          some ('\'' :: t, c)
        else some ([], c.next)
      else if isGap x then do
        let (t, c) ← quotedSpaces c
        let (more, c) ← quotedBody double fuel c
        some (t ++ more, c)
      else if double && x = '\\' then
        let c := c.next
        let k := c.peek
        match simpleEscape? k with
        | some v => do
            let (t, c) ← quotedBody double fuel c.next
            some (v :: t, c)
        | none =>
            match codeLength? k with
            | some n =>
                let digits := c.next.rest.take n
                if digits.length = n && digits.all fun d => (Ranges.hexDigit? d).isSome then do
                  let code := Ranges.ofHex digits
                  let v := if code.isValidChar then Char.ofNat code else '\ufffd'
                  let (t, c) ← quotedBody double fuel (c.next.skip n)
                  some (v :: t, c)
                else none
            | none =>
                if isBreak k then do
                  let (_, c) := c.lineBreak
                  let (breaks, c) ← quotedBreaks (c.rest.length + 1) c
                  let (more, c) ← quotedBody double fuel c
                  some (breaks ++ more, c)
                else none
      else do
        let (t, c) ← quotedBody double fuel c.next
        some (x :: t, c)

/-- A quoted scalar at its opening mark. -/
def quotedScalar (double : Bool) (c : Cursor) : Option (Text × Cursor) :=
  quotedBody double (c.rest.length + 1) c.next

/-! ### Plain scalars -/

/-- Blanks and line ends after a part of a plain scalar. -/
structure PlainGap where
  text : Text
  cursor : Cursor
  /-- Whether a line end was passed. -/
  broken : Bool

/-- The further line ends in a plain scalar, unless a mark between documents
follows one.  At most `fuel` characters are read. -/
def plainBreaks : Nat → Cursor → Option Text × Cursor
  | 0, c => (some [], c)
  | fuel + 1, c =>
      if c.peek = ' ' then plainBreaks fuel c.next
      else if isBreak c.peek then
        let (b, c) := c.lineBreak
        if c.atDocumentMark then (none, c)
        else
          match plainBreaks fuel c with
          | (some more, c) => (some (b ++ more), c)
          | (none, c) => (none, c)
      else (some [], c)

/-- The gap after a part of a plain scalar; an empty one ends the scalar. -/
def plainGap (c : Cursor) : PlainGap :=
  let (blanks, c) := c.run (· = ' ')
  if isBreak c.peek then
    let (b, c) := c.lineBreak
    if c.atDocumentMark then ⟨[], c, true⟩
    else
      match plainBreaks (c.rest.length + 1) c with
      | (none, c) => ⟨[], c, true⟩
      | (some more, c) =>
          if b != ['\n'] then ⟨b ++ more, c, true⟩
          else if more.isEmpty then ⟨[' '], c, true⟩
          else ⟨more, c, true⟩
  else ⟨blanks, c, false⟩

/-- The length of the part of a plain scalar at the head of a text. -/
def plainLength (flow : Bool) : Text → Nat
  | [] => 0
  | x :: rest =>
      let y := rest.head?.getD endMark
      if isGap x then 0
      else if x = ':' && (isGap y || (flow && ",[]\x7b\x7d".toList.contains y)) then 0
      else if flow && ",?[]\x7b\x7d".toList.contains x then 0
      else plainLength flow rest + 1

/-- A plain scalar from a cursor: its text, the cursor after it, and whether a
line end was passed after its last part.  Lines must be indented to `indent`
unless the scalar stands in brackets.  At most `fuel` parts are read. -/
def plainScalar (flow : Bool) (indent : Int) :
    Nat → Text → Bool → Cursor → Text × Cursor × Bool
  | 0, _, broken, c => ([], c, broken)
  | fuel + 1, gap, broken, c =>
      if c.peek = '#' then ([], c, broken)
      else
        let n := plainLength flow c.rest
        if n = 0 then ([], c, broken)
        else
          let part := gap ++ c.rest.take n
          let g := plainGap (c.skip n)
          if g.text.isEmpty || g.cursor.peek = '#' || (!flow && (g.cursor.column : Int) < indent)
          then (part, g.cursor, g.broken)
          else
            let (more, c, broken) := plainScalar flow indent fuel g.text g.broken g.cursor
            (part ++ more, c, broken)

/-! ### Block scalars -/

/-- What is kept of the line ends at the end of a block scalar. -/
inductive Chomping where
  | one
  | none
  | all
deriving DecidableEq

/-- The chomping that an indicator asks for. -/
def chomping? (c : Char) : Option Chomping :=
  if c = '+' then some .all else if c = '-' then some .none else Option.none

/-- The indicators of a block scalar: chomping and a fixed indentation. -/
def blockIndicators (c : Cursor) : Option (Chomping × Option Nat × Cursor) :=
  let digit? := fun (c : Cursor) => if c.peek.isDigit then some (c.peek.toNat - 48) else Option.none
  let found :=
    match chomping? c.peek with
    | some k =>
        match digit? c.next with
        | some n => (k, some n, c.next.next)
        | Option.none => (k, Option.none, c.next)
    | Option.none =>
        match digit? c with
        | some n =>
            match chomping? c.next.peek with
            | some k => (k, some n, c.next.next)
            | Option.none => (.one, some n, c.next)
        | Option.none => (.one, Option.none, c)
  if found.2.1 = some 0 || !isSpaceOrEnd found.2.2.peek then Option.none else some found

/-- The rest of the line of the indicators, which may hold a comment. -/
def blockHeader (c : Cursor) : Option Cursor :=
  let c := c.skipBlanks
  let c := if c.peek = '#' then c.toBreak else c
  if isBreakOrEnd c.peek then some c.lineBreak.2 else Option.none

/-- The empty lines at the head of a block scalar and its greatest indentation
in them.  At most `fuel` characters are read. -/
def blockStart : Nat → Nat → Cursor → Text × Nat × Cursor
  | 0, deepest, c => ([], deepest, c)
  | fuel + 1, deepest, c =>
      if c.peek = ' ' then
        let c := c.next
        blockStart fuel (max deepest c.column) c
      else if isBreak c.peek then
        let (b, c) := c.lineBreak
        let (more, deepest, c) := blockStart fuel deepest c
        (b ++ more, deepest, c)
      else ([], deepest, c)

/-- Skip blanks up to a column.  At most `fuel` are skipped. -/
def blanksTo (column : Int) : Nat → Cursor → Cursor
  | 0, c => c
  | fuel + 1, c =>
      if (c.column : Int) < column && c.peek = ' ' then blanksTo column fuel c.next else c

/-- The empty lines before the next line of a block scalar.  At most `fuel`
lines are read. -/
def blockBreaks (indent : Int) : Nat → Cursor → Text × Cursor
  | 0, c => ([], c)
  | fuel + 1, c =>
      let c := blanksTo indent (c.rest.length + 1) c
      if isBreak c.peek then
        let (b, c) := c.lineBreak
        let (more, c) := blockBreaks indent fuel c
        (b ++ more, c)
      else ([], c)

/-- The lines of a block scalar from its first one, given the empty lines
before it: the text, the last line end and the empty lines after it.  At most
`fuel` lines are read. -/
def blockLines (folded : Bool) (indent : Int) : Nat → Text → Cursor → Text × Text × Text × Cursor
  | 0, breaks, c => ([], [], breaks, c)
  | fuel + 1, breaks, c =>
      if (c.column : Int) = indent && c.peek != endMark then
        let isText := fun (x : Char) => !(x = ' ' || x = '\t')
        let flush := isText c.peek
        let (line, c) := c.run fun x => !isBreakOrEnd x
        let (b, c) := c.lineBreak
        let (after, c) := blockBreaks indent (c.rest.length + 1) c
        if (c.column : Int) = indent && c.peek != endMark then
          let joint :=
            if folded && b = ['\n'] && flush && isText c.peek then
              if after.isEmpty then [' '] else []
            else b
          let (more, last, rest, c) := blockLines folded indent fuel after c
          (breaks ++ line ++ joint ++ more, last, rest, c)
        else (breaks ++ line, b, after, c)
      else ([], [], breaks, c)

/-- A block scalar at its indicator, inside a block of the given indentation. -/
def blockScalar (folded : Bool) (outer : Int) (c : Cursor) : Option (Text × Cursor) := do
  let (chomping, fixed, c) ← blockIndicators c.next
  let c ← blockHeader c
  let least := max (outer + 1) 1
  let (breaks, indent, c) : Text × Int × Cursor :=
    match fixed with
    | Option.none =>
        let (breaks, deepest, c) := blockStart (c.rest.length + 1) 0 c
        (breaks, max least deepest, c)
    | some n =>
        let indent := least + n - 1
        let (breaks, c) := blockBreaks indent (c.rest.length + 1) c
        (breaks, indent, c)
  let (t, last, rest, c) := blockLines folded indent (c.rest.length + 1) breaks c
  match chomping with
  | .none => some (t, c)
  | .one => some (t ++ last, c)
  | .all => some (t ++ last ++ rest, c)

end DocPress.Yaml
