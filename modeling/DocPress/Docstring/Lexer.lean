import DocPress.Docstring.Token
import DocPress.Text.Identifier
import DocPress.Text.Printable

/-!
# Cutting Python text into tokens

The text is read line by line.  At the start of a line outside brackets the
indentation is compared with the open blocks; blank and comment lines do not
count.  A line number belongs to the last line read from: at the end of the
text it stays that of the last line.
-/

namespace DocPress.Docstring

open Text

/-- The text as it is read: line feeds only, one at the very end.  After a
carriage return and a line feed at the very end stands one more empty line. -/
def readable (content : Text) : Text :=
  let t := unifyLineEnds content
  if t.getLast? = some '\n' && !(['\r', '\n'].isSuffixOf content) then t else t ++ ['\n']

/-- The line number after a line feed, given what follows it. -/
def lineAfter (line : Nat) (rest : Text) : Nat := if rest.isEmpty then line else line + 1

/-- Characters that may belong to a word; whether a character beyond the first
128 really may is decided on the whole word. -/
def isWordPart (c : Char) : Bool := c.isAlphanum || c = '_' || 128 ≤ c.toNat

/-- Characters that may start a word. -/
def isWordStart (c : Char) : Bool := c.isAlpha || c = '_' || 128 ≤ c.toNat

/-- Blanks inside a line. -/
def isInlineBlank (c : Char) : Bool := c = ' ' || c = '\t' || c = '\x0c'

/-! ### Numbers -/

/-- Digits with single underscores between them, after at least one digit was
read. -/
def digitTail (isDigit : Char → Bool) : Text → Except Unit (Text × Text)
  | [] => .ok ([], [])
  | c :: rest =>
      if isDigit c then do
        let (more, rest) ← digitTail isDigit rest
        .ok (c :: more, rest)
      else if c = '_' then
        match rest with
        | d :: rest' =>
            if isDigit d then do
              let (more, rest) ← digitTail isDigit rest'
              .ok (c :: d :: more, rest)
            else .error ()
        | [] => .error ()
      else .ok ([], c :: rest)

/-- The digits of a number with a base mark: an underscore may come first. -/
def basedDigits (isDigit : Char → Bool) : Text → Except Unit (Text × Text)
  | '_' :: c :: rest =>
      if isDigit c then (digitTail isDigit rest).map fun (m, r) => ('_' :: c :: m, r)
      else .error ()
  | c :: rest =>
      if isDigit c then (digitTail isDigit rest).map fun (m, r) => (c :: m, r)
      else .error ()
  | [] => .error ()

/-- Whole words that may follow a number without a blank. -/
def wordsAfterNumber : List Text :=
  ["and".toList, "else".toList, "for".toList, "or".toList, "not".toList]

/-- What a word that follows a number without a blank may also begin with. -/
def startsAfterNumber : List Text := ["if".toList, "in".toList, "is".toList]

/-- Whether a text begins with a whole word. -/
def startsWithWord (word t : Text) : Bool :=
  word.isPrefixOf t && !((t[word.length]?).map isWordPart).getD false

/-- Whether a number may end before this text.  A character beyond the first
128 is left to what is read next. -/
def numberEnds (rest : Text) : Bool :=
  match rest with
  | [] => true
  | c :: _ =>
      !isWordPart c || 128 ≤ c.toNat || wordsAfterNumber.any (startsWithWord · rest)
        || startsAfterNumber.any (·.isPrefixOf rest)

/-- The message about a number that does not end properly. -/
def badNumber (kind : String) : Text := "invalid ".toList ++ kind.toList ++ " literal".toList

/-- Check the end of a number that was read. -/
def finishNumber (kind : String) (text rest : Text) : Except Text (Text × Text) :=
  if numberEnds rest then .ok (text, rest) else .error (badNumber kind)

/-- The imaginary mark, if it stands here, and the end of the number. -/
def imaginaryTail (text rest : Text) : Except Text (Text × Text) :=
  match rest with
  | c :: more =>
      if c = 'j' || c = 'J' then finishNumber "imaginary" (text ++ [c]) more
      else finishNumber "decimal" text rest
  | [] => .ok (text, [])

/-- Decimal digits, or the message about a misplaced underscore. -/
def decimalTail (rest : Text) : Except Text (Text × Text) :=
  match digitTail Char.isDigit rest with
  | .ok r => .ok r
  | .error _ => .error (badNumber "decimal")

/-- The exponent of a number, if one stands here, and its end. -/
def exponentTail (text rest : Text) : Except Text (Text × Text) :=
  match rest with
  | e :: more =>
      if e = 'e' || e = 'E' then
        match more with
        | s :: d :: digits =>
            if s = '+' || s = '-' then
              if d.isDigit then do
                let (tail, rest) ← decimalTail digits
                imaginaryTail (text ++ e :: s :: d :: tail) rest
              else .error (badNumber "decimal")
            else if s.isDigit then do
              let (tail, rest) ← decimalTail (d :: digits)
              imaginaryTail (text ++ e :: s :: tail) rest
            else finishNumber "decimal" text rest
        | [s] =>
            if s.isDigit then .ok (text ++ [e, s], [])
            else if s = '+' || s = '-' then .error (badNumber "decimal")
            else finishNumber "decimal" text rest
        | [] => finishNumber "decimal" text rest
      else imaginaryTail text rest
  | [] => .ok (text, [])

/-- The digits after a decimal point and the end of the number. -/
def fractionTail (text rest : Text) : Except Text (Text × Text) :=
  match rest with
  | c :: _ =>
      if c.isDigit then do
        let (digits, rest) ← decimalTail rest
        exponentTail (text ++ digits) rest
      else exponentTail text rest
  | [] => .ok (text, [])

/-- A number with a base mark: the two marks, then digits of the base. -/
def basedNumber (kind : String) (isDigit : Char → Bool) (zero mark : Char) (rest : Text) :
    Except Text (Text × Text) :=
  match basedDigits isDigit rest with
  | .error _ => .error (badNumber kind)
  | .ok (digits, rest) =>
      match rest with
      | c :: _ =>
          if c.isDigit then
            .error ("invalid digit '".toList ++ c :: "' in ".toList ++ kind.toList
              ++ " literal".toList)
          else finishNumber kind (zero :: mark :: digits) rest
      | [] => .ok (zero :: mark :: digits, [])

/-- A number without a base mark, from its whole digits on. -/
def plainNumber (t : Text) : Except Text (Text × Text) := do
  let (digits, rest) ← decimalTail t
  let leadingZeros := digits.head? = some '0' && digits.any fun c => c != '0' && c != '_'
  match rest with
  | c :: more =>
      if c = '.' then fractionTail (digits ++ ['.']) more
      else if c = 'e' || c = 'E' then exponentTail digits rest
      else if c = 'j' || c = 'J' then imaginaryTail digits rest
      else if leadingZeros then .error leadingZerosMessage
      else finishNumber "decimal" digits rest
  | [] => if leadingZeros then .error leadingZerosMessage else .ok (digits, [])
where
  /-- The message about a whole number that starts with a zero. -/
  leadingZerosMessage : Text :=
    ("leading zeros in decimal integer literals are not permitted; " ++
      "use an 0o prefix for octal integers").toList

/-- A number at the head of a text, which starts with a digit or with a point
and a digit. -/
def number (t : Text) : Except Text (Text × Text) :=
  match t with
  | '.' :: rest => fractionTail ['.'] rest
  | '0' :: mark :: rest =>
      if mark = 'x' || mark = 'X' then basedNumber "hexadecimal" isHexDigit '0' mark rest
      else if mark = 'o' || mark = 'O' then
        basedNumber "octal" (fun c => '0' ≤ c && c ≤ '7') '0' mark rest
      else if mark = 'b' || mark = 'B' then
        basedNumber "binary" (fun c => c = '0' || c = '1') '0' mark rest
      else plainNumber t
  | _ => plainNumber t
where
  /-- Hexadecimal digits. -/
  isHexDigit (c : Char) : Bool := (Ranges.hexDigit? c).isSome

/-! ### Strings -/

/-- What is read of a string: its text, the rest and the line reached, or the
line at which its end was missed. -/
abbrev StringRead := Except Nat (Text × Text × Nat)

/-- Put characters in front of what was read. -/
def StringRead.prepend (front : Text) (r : StringRead) : StringRead :=
  r.map fun (t, rest, line) => (front ++ t, rest, line)

/-- The body of a string on one line up to its closing mark. -/
def shortString (mark : Char) (line : Nat) : Text → StringRead
  | [] => .error line
  | '\\' :: c :: rest =>
      (shortString mark (if c = '\n' then lineAfter line rest else line) rest).prepend ['\\', c]
  | c :: rest =>
      if c = mark then .ok ([c], rest, line)
      else if c = '\n' then .error line
      else (shortString mark line rest).prepend [c]

/-- The body of a string over many lines up to three closing marks. -/
def longString (mark : Char) (line : Nat) : Text → StringRead
  | [] => .error line
  | '\\' :: c :: rest =>
      (longString mark (if c = '\n' then lineAfter line rest else line) rest).prepend ['\\', c]
  | c :: rest =>
      if c = mark && rest.take 2 = [mark, mark] then
        .ok ([mark, mark, mark], rest.drop 2, line)
      else (longString mark (if c = '\n' then lineAfter line rest else line) rest).prepend [c]

/-- A string at the head of a text that starts with its mark. -/
def stringBody (line : Nat) : Text → Except Fault (Text × Text × Nat)
  | a :: b :: c :: rest =>
      if b = a && c = a then
        match longString a line rest with
        | .ok (t, rest, last) => .ok (a :: b :: c :: t, rest, last)
        | .error found =>
            .error (.lexical ("unterminated triple-quoted string literal (detected at line ".toList
              ++ Text.ofNat found ++ [')']) line)
      else if b = a then .ok ([a, b], c :: rest, line)
      else short a (b :: c :: rest)
  | a :: rest => short a rest
  | [] => .error (.endOfText line)
where
  /-- A string with single marks. -/
  short (a : Char) (rest : Text) : Except Fault (Text × Text × Nat) :=
    match shortString a line rest with
    | .ok (t, rest, last) => .ok (a :: t, rest, last)
    | .error found =>
        .error (.lexical ("unterminated string literal (detected at line ".toList
          ++ Text.ofNat found ++ [')']) line)

/-- The letters that may stand before a string, in lower case. -/
def stringLetters : List Text :=
  ["b".toList, "r".toList, "u".toList, "f".toList, "br".toList, "rb".toList, "fr".toList,
    "rf".toList]

/-! ### Operators -/

/-- Operators of three characters. -/
def operators3 : List Text :=
  ["**=".toList, "...".toList, "//=".toList, "<<=".toList, ">>=".toList]

/-- Operators of two characters. -/
def operators2 : List Text :=
  ["!=".toList, "%=".toList, "&=".toList, "**".toList, "*=".toList, "+=".toList, "-=".toList,
    "->".toList, "//".toList, "/=".toList, ":=".toList, "<<".toList, "<=".toList, "<>".toList,
    "==".toList, ">=".toList, ">>".toList, "@=".toList, "^=".toList, "|=".toList]

/-- The operator at the head of a non-empty text: the longest that fits, else
one character. -/
def operatorText (t : Text) : Text :=
  if operators3.contains (t.take 3) then t.take 3
  else if operators2.contains (t.take 2) then t.take 2
  else t.take 1

/-! ### The reader -/

/-- The state of the reader between tokens. -/
structure Reader where
  rest : Text
  line : Nat
  atLineStart : Bool
  /-- Columns of the open blocks, innermost first, measured with wide and with
  narrow tabs. -/
  indents : List (Nat × Nat)
  brackets : List (Char × Nat)

/-- What one step of the reader yields. -/
inductive Step where
  | tokens (ts : List Token) (next : Reader)
  | finished (ts : List Token)
  | faulty (f : Fault)

namespace Reader

/-- A token at the current line. -/
def token (r : Reader) (kind : TokenKind) (text : Text) : Token :=
  ⟨kind, text, r.line, r.brackets.length⟩

/-- The indentation at the head of a line: wide and narrow column, the column
before the first backslash, what follows and its line. -/
structure Margin where
  wide : Nat
  narrow : Nat
  continued : Nat
  rest : Text
  line : Nat

/-- Measure the indentation; a backslash joins the next line. -/
def margin (wide narrow continued line : Nat) : Text → Except Fault Margin
  | ' ' :: rest => margin (wide + 1) (narrow + 1) continued line rest
  | '\t' :: rest => margin ((wide / 8 + 1) * 8) (narrow + 1) continued line rest
  | '\x0c' :: rest => margin 0 0 continued line rest
  | '\\' :: '\n' :: rest =>
      if rest.isEmpty then .error (.endOfText line)
      else margin wide narrow (if continued = 0 then wide else continued) (line + 1) rest
  | '\\' :: _ => .error (.continuation line)
  | rest => .ok ⟨wide, narrow, continued, rest, line⟩

/-- The greatest number of open blocks. -/
def maxIndents : Nat := 100

/-- The greatest number of open brackets. -/
def maxBrackets : Nat := 200

/-- Compare the indentation with the open blocks. -/
def indent (r : Reader) (wide narrow : Nat) : Step :=
  match r.indents with
  | [] => .faulty (.unindent r.line)
  | (w, n) :: _ =>
      if wide = w then
        if narrow = n then .tokens [] r else .faulty (.tabs r.line)
      else if w < wide then
        if maxIndents ≤ r.indents.length then .faulty (.tooDeep r.line)
        else if narrow ≤ n then .faulty (.tabs r.line)
        else .tokens [r.token .indent []] { r with indents := (wide, narrow) :: r.indents }
      else
        let kept := r.indents.dropWhile fun i => wide < i.1
        match kept with
        | [] => .faulty (.unindent r.line)
        | (w, n) :: _ =>
            if wide != w then .faulty (.unindent r.line)
            else if narrow != n then .faulty (.tabs r.line)
            else
              .tokens (List.replicate (r.indents.length - kept.length) (r.token .dedent []))
                { r with indents := kept }

/-- The text after the comment at its head, if there is one. -/
def skipComment (t : Text) : Text :=
  match t with
  | '#' :: _ => t.dropWhile (· != '\n')
  | _ => t

/-- Whether nothing but a comment is left of the line. -/
def isBlankLine : Text → Bool
  | c :: _ => c = '#' || c = '\n'
  | [] => false

/-- Read the start of a line. -/
def lineStart (r : Reader) : Step :=
  match margin 0 0 0 r.line r.rest with
  | .error f => .faulty f
  | .ok m =>
      let r := { r with rest := m.rest, line := m.line, atLineStart := false }
      if isBlankLine m.rest then
        let rest := (skipComment m.rest).drop 1
        .tokens [] { r with rest := rest, line := lineAfter r.line rest, atLineStart := true }
      else if r.brackets.isEmpty then
        let wide := if m.continued = 0 then m.wide else m.continued
        let narrow := if m.continued = 0 then m.narrow else m.continued
        r.indent wide narrow
      else .tokens [] r

/-- A word, or a string with letters before its mark. -/
def word (r : Reader) : Step :=
  let w := r.rest.takeWhile isWordPart
  let rest := r.rest.dropWhile isWordPart
  let isString := (rest.head? = some '"' || rest.head? = some '\'')
    && stringLetters.contains (w.map Char.toLower)
  if isString then
    match stringBody r.line rest with
    | .error f => .faulty f
    | .ok (t, rest, last) =>
        .tokens [r.token .string (w ++ t)] { r with rest := rest, line := last }
  else if w.all (·.toNat < 128) || isIdentifier w then
    .tokens [r.token (wordKind w) w] { r with rest := rest }
  else
    let bad := (w.find? fun c => 128 ≤ c.toNat && !isIdentifierChar c).getD ' '
    let code := (Text.hex 4 bad.toNat).map Char.toUpper
    .faulty (.lexical
      (if isPrintable bad then
        "invalid character '".toList ++ bad :: "' (U+".toList ++ code ++ [')']
      else "invalid non-printable character U+".toList ++ code) r.line)

/-- The closing bracket for an opening one. -/
def closing (c : Char) : Char :=
  if c = '(' then ')' else if c = '[' then ']' else '\x7d'

/-- An operator or bracket. -/
def operator (r : Reader) (c : Char) : Step :=
  let text := operatorText r.rest
  let r := { r with rest := r.rest.drop text.length }
  if text.length ≠ 1 then .tokens [r.token .op text] r
  else if c = '(' || c = '[' || c = '\x7b' then
    if maxBrackets ≤ r.brackets.length then
      .faulty (.lexical "too many nested parentheses".toList r.line)
    else
      let r := { r with brackets := (c, r.line) :: r.brackets }
      .tokens [r.token .op text] r
  else if c = ')' || c = ']' || c = '\x7d' then
    match r.brackets with
    | [] => .faulty (.lexical ("unmatched '".toList ++ [c, '\'']) r.line)
    | (opener, line) :: more =>
        if closing opener = c then
          let r := { r with brackets := more }
          .tokens [r.token .op text] r
        else
          let place : Text := if line = r.line then [] else " on line ".toList ++ Text.ofNat line
          .faulty (.lexical ("closing parenthesis '".toList ++ c
            :: "' does not match opening parenthesis '".toList ++ opener :: '\'' :: place) r.line)
  else if isPrintable c then .tokens [r.token .op text] r
  else
    .faulty (.lexical ("invalid non-printable character U+".toList
      ++ (Text.hex 4 c.toNat).map Char.toUpper) r.line)

/-- Read one token inside a line. -/
def inLine (r : Reader) : Step :=
  let rest := skipComment (r.rest.dropWhile isInlineBlank)
  let r := { r with rest := rest }
  match rest with
  | [] =>
      if r.brackets.isEmpty then .finished [r.token .endMarker []]
      else .faulty (.endOfText r.line)
  | c :: more =>
      if isWordStart c then r.word
      else if c = '\n' then
        let next := { r with rest := more, line := lineAfter r.line more, atLineStart := true }
        .tokens (if r.brackets.isEmpty then [r.token .newline []] else []) next
      else if c.isDigit || (c = '.' && (more.head?.map Char.isDigit).getD false) then
        match number rest with
        | .error message => .faulty (.lexical message r.line)
        | .ok (text, rest) => .tokens [r.token .number text] { r with rest := rest }
      else if c = '"' || c = '\'' then
        match stringBody r.line rest with
        | .error f => .faulty f
        | .ok (t, rest, last) =>
            .tokens [r.token .string t] { r with rest := rest, line := last }
      else if c = '\\' then
        match more with
        | '\n' :: rest =>
            if rest.isEmpty then .faulty (.endOfText r.line)
            else .tokens [] { r with rest := rest, line := r.line + 1 }
        | _ => .faulty (.continuation r.line)
      else r.operator c

/-- Read one step. -/
def step (r : Reader) : Step := if r.atLineStart then r.lineStart else r.inLine

/-- Read all tokens.  Every second step at least consumes a character. -/
def run : Nat → Reader → List Token → Lexed
  | 0, r, acc => ⟨acc.reverse, some (.endOfText r.line), r.brackets.head?⟩
  | fuel + 1, r, acc =>
      match r.step with
      | .tokens ts next => run fuel next (ts.reverse ++ acc)
      | .finished ts => ⟨(ts.reverse ++ acc).reverse, none, none⟩
      | .faulty f => ⟨acc.reverse, some f, r.brackets.head?⟩

end Reader

/-- The tokens of a text whose first line has the given number. -/
def lex (line : Nat) (content : Text) : Lexed :=
  let t := readable content
  Reader.run (2 * t.length + 4)
    { rest := t, line := line, atLineStart := true, indents := [(0, 0)], brackets := [] } []

end DocPress.Docstring
