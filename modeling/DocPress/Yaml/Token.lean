import DocPress.Yaml.Scalar

/-!
# Tokens

A document is cut into tokens.  Indentation opens and closes blocks outside
brackets.  A key is recognised only at the colon after it, so the places where
a key may have started are remembered until then.
-/

namespace DocPress.Yaml

open Text

/-- A tag as it is written: a handle, if it has one, and the rest. -/
structure TagName where
  handle : Option Text
  suffix : Text
deriving DecidableEq

/-- A line that tells something about the document. -/
inductive Directive where
  | version (major minor : Nat)
  | tag (handle uri : Text)
  | other
deriving DecidableEq

/-- The tokens of a document. -/
inductive Token where
  | directive (d : Directive)
  | documentStart
  | documentEnd
  | blockSequence
  | blockMapping
  | blockEnd
  | flowSequence
  | flowSequenceEnd
  | flowMapping
  | flowMappingEnd
  | entry
  | flowEntry
  | key
  | value
  | alias (name : Text)
  | anchor (name : Text)
  | tag (t : TagName)
  | scalar (text : Text) (plain : Bool)
  | streamEnd
deriving DecidableEq

/-- A place where a key may have started. -/
structure PossibleKey where
  token : Nat
  required : Bool
  index : Nat
  line : Nat
  column : Nat

/-- The state of the cutting. -/
structure Lexing where
  cursor : Cursor
  tokens : Array Token
  indent : Int
  indents : List Int
  flow : Nat
  keyAllowed : Bool
  /-- Possible keys by the depth of brackets, the deepest first. -/
  keys : List (Nat × PossibleKey)

namespace Lexing

/-- The start of a text. -/
def start (t : Text) : Lexing := ⟨Cursor.start t, #[], -1, [], 0, true, []⟩

/-- Add a token. -/
def push (l : Lexing) (t : Token) : Lexing := { l with tokens := l.tokens.push t }

/-- Add a token at the cursor, which is a number of characters long. -/
def pushSkip (l : Lexing) (t : Token) (n : Nat) : Lexing :=
  { l with tokens := l.tokens.push t, cursor := l.cursor.skip n }

/-- Close the blocks that are indented deeper than a column.  At most `fuel`
blocks are closed. -/
def unwind (column : Int) : Nat → Lexing → Lexing
  | 0, l => l
  | fuel + 1, l =>
      if l.flow = 0 && column < l.indent then
        unwind column fuel
          { l.push .blockEnd with indent := l.indents.head?.getD (-1), indents := l.indents.tail }
      else l

/-- Close the blocks that are indented deeper than a column. -/
def closeTo (l : Lexing) (column : Int) : Lexing := l.unwind column (l.indents.length + 1)

/-- Open a block at a column, unless one is open there. -/
def openAt (l : Lexing) (column : Int) : Lexing × Bool :=
  if l.indent < column then ({ l with indents := l.indent :: l.indents, indent := column }, true)
  else (l, false)

/-- Forget the possible key at the current depth; one that had to be a key is
missing its colon. -/
def dropKey (l : Lexing) : Option Lexing :=
  match l.keys.find? fun k => k.1 = l.flow with
  | some (_, k) =>
      if k.required then none else some { l with keys := l.keys.filter fun k => k.1 != l.flow }
  | none => some l

/-- Remember that a key may start here. -/
def saveKey (l : Lexing) : Option Lexing := do
  if l.keyAllowed then
    let l ← l.dropKey
    let c := l.cursor
    let required := l.flow = 0 && l.indent = c.column
    some { l with keys := (l.flow, ⟨l.tokens.size, required, c.index, c.line, c.column⟩) :: l.keys }
  else some l

/-- Forget the possible keys of earlier lines and those too far back. -/
def dropStale (l : Lexing) : Option Lexing :=
  let stale := fun (k : Nat × PossibleKey) =>
    k.2.line != l.cursor.line || 1024 < l.cursor.index - k.2.index
  if l.keys.any fun k => stale k && k.2.required then none
  else some { l with keys := l.keys.filter fun k => !stale k }

/-- Skip blanks, comments and line ends.  At most `fuel` lines are skipped. -/
def skipLines : Nat → Lexing → Lexing
  | 0, l => l
  | fuel + 1, l =>
      let c := l.cursor
      let c := if c.index = 0 && c.peek = '\ufeff' then c.next else c
      let c := c.skipBlanks
      let c := if c.peek = '#' then c.toBreak else c
      if isBreak c.peek then
        let c := c.lineBreak.2
        skipLines fuel { l with cursor := c, keyAllowed := l.keyAllowed || l.flow = 0 }
      else { l with cursor := c }

/-! ### Directives, tags and anchors -/

/-- The rest of a line after a directive. -/
def directiveEnd (c : Cursor) : Option Cursor :=
  let c := c.skipBlanks
  let c := if c.peek = '#' then c.toBreak else c
  if isBreakOrEnd c.peek then some c.lineBreak.2 else none

/-- A decimal number. -/
def number? (c : Cursor) : Option (Nat × Cursor) :=
  let (digits, c) := c.run Char.isDigit
  if digits.isEmpty then none
  else some (digits.foldl (fun n d => n * 10 + (d.toNat - 48)) 0, c)

/-- Characters of a tag besides escapes. -/
def isTagChar (c : Char) : Bool :=
  c.isAlphanum || "-;/?:@&=+$,_.!~*'()[]".toList.contains c

/-- The bytes of escapes in a tag.  At most `fuel` are read. -/
def tagEscapes : Nat → Cursor → Option (List UInt8 × Cursor)
  | 0, c => some ([], c)
  | fuel + 1, c =>
      if c.peek != '%' then some ([], c)
      else
        let digits := c.next.rest.take 2
        if digits.length = 2 && digits.all fun d => (Ranges.hexDigit? d).isSome then do
          let (more, c) ← tagEscapes fuel (c.skip 3)
          some ((Ranges.ofHex digits).toUInt8 :: more, c)
        else none

/-- The text of a tag after its handle.  At most `fuel` characters are read. -/
def tagUri : Nat → Cursor → Option (Text × Cursor)
  | 0, c => some ([], c)
  | fuel + 1, c =>
      if c.peek = '%' then do
        let (bytes, c) ← tagEscapes (c.rest.length + 1) c
        let t ← String.fromUTF8? (ByteArray.mk bytes.toArray)
        let (more, c) ← tagUri fuel c
        some (t.toList ++ more, c)
      else if isTagChar c.peek then do
        let (more, d) ← tagUri fuel c.next
        some (c.peek :: more, d)
      else some ([], c)

/-- The text of a tag, which must not be empty. -/
def tagUri1 (c : Cursor) : Option (Text × Cursor) := do
  let (t, d) ← tagUri (c.rest.length + 1) c
  if t.isEmpty then none else some (t, d)

/-- A tag handle: a mark, a word and a mark, or one mark before a blank. -/
def tagHandle (c : Cursor) : Option (Text × Cursor) :=
  if c.peek != '!' then none
  else if c.peekAt 1 = ' ' then some (['!'], c.next)
  else
    let (word, d) := c.next.run isWord
    if d.peek = '!' then some ('!' :: word ++ ['!'], d.next)
    else none

/-- A directive at its mark. -/
def directive (c : Cursor) : Option (Directive × Cursor) := do
  let (name, c) := c.next.run isWord
  if name.isEmpty || !isSpaceOrEnd c.peek then none
  else if name = "YAML".toList then do
    let (major, c) ← number? c.skipBlanks
    if c.peek != '.' then none
    else
      let (minor, c) ← number? c.next
      if !isSpaceOrEnd c.peek then none
      else some (.version major minor, ← directiveEnd c)
  else if name = "TAG".toList then do
    let (handle, c) ← tagHandle c.skipBlanks
    if c.peek != ' ' then none
    else
      let (uri, c) ← tagUri1 c.skipBlanks
      if !isSpaceOrEnd c.peek then none
      else some (.tag handle uri, ← directiveEnd c)
  else some (.other, ← directiveEnd c.toBreak)

/-- A tag at its mark. -/
def tag (c : Cursor) : Option (TagName × Cursor) := do
  let x := c.peekAt 1
  let (t, c) ←
    if x = '<' then do
      let (uri, c) ← tagUri1 (c.skip 2)
      if c.peek = '>' then some ((⟨none, uri⟩ : TagName), c.next) else none
    else if isGap x then some (⟨none, ['!']⟩, c.next)
    else
      let word := c.next.rest.takeWhile fun y => !isSpaceOrEnd y
      if word.contains '!' then do
        let (handle, c) ← tagHandle c
        let (uri, c) ← tagUri1 c
        some (⟨some handle, uri⟩, c)
      else do
        let (uri, c) ← tagUri1 c.next
        some (⟨some ['!'], uri⟩, c)
  if isSpaceOrEnd c.peek then some (t, c) else none

/-- The name of an anchor or alias at its mark. -/
def anchorName (c : Cursor) : Option (Text × Cursor) :=
  let (word, c) := c.next.run isWord
  if word.isEmpty || !(isGap c.peek || "?:,]\x7d%@`".toList.contains c.peek) then none
  else some (word, c)

/-! ### The next token -/

/-- Add the token at the end of the text. -/
def finish (l : Lexing) : Option Lexing := do
  let l ← (l.closeTo (-1)).dropKey
  some { l.push .streamEnd with keyAllowed := false, keys := [] }

/-- Whether a plain scalar may start at the cursor. -/
def startsPlain (l : Lexing) : Bool :=
  let x := l.cursor.peek
  let indicators := "-?:,[]\x7b\x7d#&*!|>'\"%@`".toList
  (!isGap x && !indicators.contains x)
    || (!isGap (l.cursor.peekAt 1) && (x = '-' || (l.flow = 0 && (x = '?' || x = ':'))))

/-- Open a bracket. -/
def openFlow (l : Lexing) (t : Token) : Option Lexing := do
  let l ← l.saveKey
  some { l.pushSkip t 1 with flow := l.flow + 1, keyAllowed := true }

/-- Close a bracket. -/
def closeFlow (l : Lexing) (t : Token) : Option Lexing := do
  let l ← l.dropKey
  some { l.pushSkip t 1 with flow := l.flow - 1, keyAllowed := false }

/-- A mark between documents. -/
def documentMark (l : Lexing) (t : Token) : Option Lexing := do
  let l ← (l.closeTo (-1)).dropKey
  some { l.pushSkip t 3 with keyAllowed := false }

/-- Open a block at the cursor if there is none, for an entry or a key. -/
def openBlock (l : Lexing) (t : Token) : Option Lexing :=
  if l.flow != 0 then some l
  else if !l.keyAllowed then none
  else
    let (l, opened) := l.openAt l.cursor.column
    some (if opened then l.push t else l)

/-- The colon after a key, or one without a key. -/
def valueMark (l : Lexing) : Option Lexing := do
  match l.keys.find? fun k => k.1 = l.flow with
  | some (_, k) =>
      let tokens := l.tokens.insertIdxIfInBounds k.token .key
      let l := { l with tokens := tokens, keys := l.keys.filter fun k => k.1 != l.flow }
      let l :=
        if l.flow = 0 then
          let (l, opened) := l.openAt k.column
          if opened then { l with tokens := l.tokens.insertIdxIfInBounds k.token .blockMapping }
          else l
        else l
      some { l.pushSkip .value 1 with keyAllowed := false }
  | none => do
      let l ← l.openBlock .blockMapping
      let l := { l with keyAllowed := l.flow = 0 }
      let l ← l.dropKey
      some (l.pushSkip .value 1)

/-- Add the next token. -/
def step (l : Lexing) : Option Lexing := do
  let l := skipLines (l.cursor.rest.length + 1) l
  let l ← l.dropStale
  let l := l.closeTo l.cursor.column
  let c := l.cursor
  let x := c.peek
  let y := c.peekAt 1
  if x = endMark then l.finish
  else if x = '%' && c.column = 0 then do
    let l ← (l.closeTo (-1)).dropKey
    let (d, c) ← directive c
    some { l.push (.directive d) with cursor := c, keyAllowed := false }
  else if x = '-' && c.column = 0 && c.atDocumentMark then l.documentMark .documentStart
  else if x = '.' && c.column = 0 && c.atDocumentMark then l.documentMark .documentEnd
  else if x = '[' then l.openFlow .flowSequence
  else if x = '\x7b' then l.openFlow .flowMapping
  else if x = ']' then l.closeFlow .flowSequenceEnd
  else if x = '\x7d' then l.closeFlow .flowMappingEnd
  else if x = ',' then do
    let l ← { l with keyAllowed := true }.dropKey
    some (l.pushSkip .flowEntry 1)
  else if x = '-' && isGap y then do
    let l ← l.openBlock .blockSequence
    let l ← { l with keyAllowed := true }.dropKey
    some (l.pushSkip .entry 1)
  else if x = '?' && (l.flow != 0 || isGap y) then do
    let l ← l.openBlock .blockMapping
    let l ← { l with keyAllowed := l.flow = 0 }.dropKey
    some (l.pushSkip .key 1)
  else if x = ':' && (l.flow != 0 || isGap y) then l.valueMark
  else if x = '*' then do
    let l ← l.saveKey
    let (name, c) ← anchorName c
    some { l.push (.alias name) with cursor := c, keyAllowed := false }
  else if x = '&' then do
    let l ← l.saveKey
    let (name, c) ← anchorName c
    some { l.push (.anchor name) with cursor := c, keyAllowed := false }
  else if x = '!' then do
    let l ← l.saveKey
    let (t, c) ← tag c
    some { l.push (.tag t) with cursor := c, keyAllowed := false }
  else if (x = '|' || x = '>') && l.flow = 0 then do
    let l ← { l with keyAllowed := true }.dropKey
    let (t, c) ← blockScalar (x = '>') l.indent c
    some { l.push (.scalar t false) with cursor := c }
  else if x = '\'' || x = '"' then do
    let l ← l.saveKey
    let (t, c) ← quotedScalar (x = '"') c
    some { l.push (.scalar t false) with cursor := c, keyAllowed := false }
  else if l.startsPlain then do
    let l ← l.saveKey
    let (t, c, broken) := plainScalar (l.flow != 0) (l.indent + 1) (c.rest.length + 1) [] false c
    some { l.push (.scalar t true) with cursor := c, keyAllowed := broken }
  else none

/-- Add tokens until the text ends.  At most `fuel` steps are made. -/
def run : Nat → Lexing → Option (Array Token)
  | 0, _ => none
  | fuel + 1, l => do
      let l ← l.step
      if l.tokens.back? = some .streamEnd then some l.tokens else run fuel l

end Lexing

/-- Characters that a document may hold. -/
def isPrintableChar (c : Char) : Bool :=
  let n := c.toNat
  n = 9 || n = 10 || n = 13 || (0x20 ≤ n && n ≤ 0x7e) || n = 0x85
    || (0xa0 ≤ n && n ≤ 0xfffd) || 0x10000 ≤ n

/-- The tokens of a text; nothing if it cannot be cut into tokens. -/
def tokensOf? (t : Text) : Option (List Token) :=
  if t.all isPrintableChar then
    (Lexing.run (2 * t.length + 10) (Lexing.start t)).map Array.toList
  else none

end DocPress.Yaml
