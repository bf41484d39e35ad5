import DocPress.Docstring.CharacterData
import DocPress.Docstring.Token
import DocPress.Text.Ranges

/-!
# String and number literals

The value of a literal is read from the text of its token.  A string value is
a list of code points, since an escape may write a code point that is no
character.  A formatted string is cut into literal pieces and fields; a fault
ends the pieces, so that what comes before it is looked at first.
-/

namespace DocPress.Docstring.Literal

open Text

/-! ### Escapes -/

/-- The value of up to `n` hexadecimal digits, which must all be there. -/
def hexValue? (n : Nat) (t : Text) : Option Nat :=
  let digits := t.take n
  if digits.length = n && digits.all fun c => (Ranges.hexDigit? c).isSome then
    some (Ranges.ofHex digits)
  else none

/-- The code point of a single-letter escape. -/
def simpleEscape? (c : Char) : Option Nat :=
  if c = '\\' || c = '\'' || c = '"' then some c.toNat
  else if c = 'a' then some 7
  else if c = 'b' then some 8
  else if c = 'f' then some 12
  else if c = 'n' then some 10
  else if c = 'r' then some 13
  else if c = 't' then some 9
  else if c = 'v' then some 11
  else none

/-- Octal digits. -/
def isOctal (c : Char) : Bool := '0' ≤ c && c ≤ '7'

/-- The words about an escape that is too short or unknown. -/
def badEscape (what : String) : Text :=
  "(unicode error) 'unicodeescape' codec can't decode bytes: ".toList ++ what.toList

/-- The character whose name stands between braces after an escape, and the text
behind it. -/
def namedChar (data : CharacterData) (t : Text) : Except Text (Char × Text) :=
  match t with
  | '\x7b' :: after =>
      let name := after.takeWhile (· != '\x7d')
      if name.isEmpty || name.length = after.length then
        .error (badEscape "malformed \\N character escape")
      else
        match data.named? name with
        | some c => .ok (c, after.drop (name.length + 1))
        | none => .error (badEscape "unknown Unicode character name")
  | _ => .error (badEscape "malformed \\N character escape")

/-- The code points that a text with escapes writes.  `wide` allows the escapes
of code points beyond a byte.  At most `fuel` characters are read. -/
def unescape (data : CharacterData) (wide : Bool) : Nat → Text → Except Text (List Nat)
  | 0, _ => .ok []
  | _, [] => .ok []
  | fuel + 1, c :: rest =>
      if c != '\\' then return c.toNat :: (← unescape data wide fuel rest)
      else
        match rest with
        | [] => .ok [92]
        | k :: more =>
            if k = '\n' then unescape data wide fuel more
            else
              match simpleEscape? k with
              | some n => return n :: (← unescape data wide fuel more)
              | none =>
                  if isOctal k then
                    let digits := (rest.take 3).takeWhile isOctal
                    let n := digits.foldl (fun n c => n * 8 + (c.toNat - 48)) 0
                    let n := if wide then n else n % 256
                    return n :: (← unescape data wide fuel (rest.drop digits.length))
                  else if k = 'x' then
                    match hexValue? 2 more with
                    | some n => return n :: (← unescape data wide fuel (more.drop 2))
                    | none =>
                        if wide then .error (badEscape "truncated \\xXX escape")
                        else .error "(value error) invalid \\x escape".toList
                  else if wide && k = 'u' then
                    match hexValue? 4 more with
                    | some n => return n :: (← unescape data wide fuel (more.drop 4))
                    | none => .error (badEscape "truncated \\uXXXX escape")
                  else if wide && k = 'U' then
                    match hexValue? 8 more with
                    | some n =>
                        if n < 0x110000 then return n :: (← unescape data wide fuel (more.drop 8))
                        else .error (badEscape "illegal Unicode character")
                    | none => .error (badEscape "truncated \\UXXXXXXXX escape")
                  else if wide && k = 'N' then do
                    let (c, rest) ← namedChar data more
                    return c.toNat :: (← unescape data wide fuel rest)
                  else return 92 :: k.toNat :: (← unescape data wide fuel more)

/-- The code points of the body of a string. -/
def textValue (data : CharacterData) (raw : Bool) (body : Text) : Except Text (List Nat) :=
  if raw then .ok (body.map Char.toNat) else unescape data true body.length body

/-- The bytes of the body of a byte string. -/
def bytesValue (data : CharacterData) (raw : Bool) (body : Text) : Except Text (List Nat) :=
  if raw then .ok (body.map Char.toNat) else unescape data false body.length body

/-! ### Parts of a string token -/

/-- The letters before the mark, in lower case, and the text between the marks. -/
def parts (t : Text) : Text × Text :=
  let letters := t.takeWhile fun c => c != '"' && c != '\''
  let quoted := t.drop letters.length
  let marks := match quoted with
    | a :: b :: c :: _ => if b = a && c = a && 6 ≤ quoted.length then 3 else 1
    | _ => 1
  let body := (quoted.drop marks).take (quoted.length - 2 * marks)
  (letters.map Char.toLower, body)

/-! ### Formatted strings -/

/-- A piece of a formatted string. -/
inductive Piece where
  | literal (codes : List Nat)
  /-- An expression with the line it stands on, the conversion letter and the
  pieces of its format. -/
  | field (source : Text) (line : Nat) (conversion : Option Char) (spec : Option (List Piece))
  | fault (message : Text)

/-- The literal text at the head of a formatted string: its raw text, whether a
doubled brace ended it, and the rest; or a fault.  Doubled braces count only at
the top level. -/
def literalHead (raw top : Bool) : Nat → Text → Text → Except Text (Text × Bool × Text)
  | 0, acc, t => .ok (acc.reverse, false, t)
  | _, acc, [] => .ok (acc.reverse, false, [])
  | fuel + 1, acc, c :: rest =>
      if !raw && c = '\\' && !rest.isEmpty then
        match rest with
        | 'N' :: '\x7b' :: more =>
            let name := more.takeWhile (· != '\x7d')
            let after := more.drop name.length
            literalHead raw top fuel
              ((after.take 1).reverse ++ name.reverse ++ ['\x7b', 'N', '\\'] ++ acc) (after.drop 1)
        | 'N' :: more => literalHead raw top fuel ('N' :: '\\' :: acc) more
        | k :: more =>
            if k = '\x7b' || k = '\x7d' then brace fuel ('\\' :: acc) k more
            else literalHead raw top fuel (k :: '\\' :: acc) more
        | [] => .ok ((c :: acc).reverse, false, [])
      else if c = '\x7b' || c = '\x7d' then brace fuel acc c rest
      else literalHead raw top fuel (c :: acc) rest
where
  /-- A brace in literal text. -/
  brace (_fuel : Nat) (acc : Text) (c : Char) (rest : Text) : Except Text (Text × Bool × Text) :=
    if top then
      if rest.head? = some c then .ok ((c :: acc).reverse, true, rest.drop 1)
      else if c = '\x7d' then .error "f-string: single '\x7d' is not allowed".toList
      else .ok (acc.reverse, false, c :: rest)
    else .ok (acc.reverse, false, c :: rest)

/-- Where the walk over an expression stands: inside a string with a mark of
one or three characters, and the open brackets. -/
structure Walk where
  mark : Option (Char × Bool)
  brackets : List Char

/-- The source of an expression at the head of a field, and the rest, which
starts with the character that ended it. -/
def fieldSource : Nat → Walk → Text → Text → Except Text (Text × Text)
  | 0, w, acc, t => finish w acc t
  | _, w, acc, [] => finish w acc []
  | fuel + 1, w, acc, c :: rest =>
      if c = '\\' then .error "f-string expression part cannot include a backslash".toList
      else
        match w.mark with
        | some (mark, long) =>
            if c = mark then
              if long then
                match rest with
                | a :: b :: more =>
                    if a = mark && b = mark then
                      fieldSource fuel { w with mark := none } (b :: a :: c :: acc) more
                    else fieldSource fuel w (c :: acc) rest
                | _ => fieldSource fuel w (c :: acc) rest
              else fieldSource fuel { w with mark := none } (c :: acc) rest
            else fieldSource fuel w (c :: acc) rest
        | none =>
            if c = '\'' || c = '"' then
              match rest with
              | a :: b :: more =>
                  if a = c && b = c then
                    fieldSource fuel { w with mark := some (c, true) } (b :: a :: c :: acc) more
                  else fieldSource fuel { w with mark := some (c, false) } (c :: acc) rest
              | _ => fieldSource fuel { w with mark := some (c, false) } (c :: acc) rest
            else if c = '[' || c = '\x7b' || c = '(' then
              if 200 ≤ w.brackets.length then
                .error "f-string: too many nested parenthesis".toList
              else fieldSource fuel { w with brackets := c :: w.brackets } (c :: acc) rest
            else if c = '#' then .error "f-string expression part cannot include '#'".toList
            else if w.brackets.isEmpty && (c = '!' || c = ':' || c = '\x7d' || c = '=' || c = '<'
                || c = '>') then
              if (c = '!' || c = '=' || c = '<' || c = '>') && rest.head? = some '=' then
                fieldSource fuel w ('=' :: c :: acc) (rest.drop 1)
              else if c = '>' || c = '<' then fieldSource fuel w (c :: acc) rest
              else finish w acc (c :: rest)
            else if c = ']' || c = '\x7d' || c = ')' then
              match w.brackets with
              | [] => .error ("f-string: unmatched '".toList ++ [c, '\''])
              | o :: more =>
                  if (o = '(' && c = ')') || (o = '[' && c = ']') || (o = '\x7b' && c = '\x7d') then
                    fieldSource fuel { w with brackets := more } (c :: acc) rest
                  else
                    .error ("f-string: closing parenthesis '".toList ++ c
                      :: "' does not match opening parenthesis '".toList ++ [o, '\''])
            else fieldSource fuel w (c :: acc) rest
where
  /-- Leave the expression. -/
  finish (w : Walk) (acc t : Text) : Except Text (Text × Text) :=
    if w.mark.isSome then .error "f-string: unterminated string".toList
    else
      match w.brackets with
      | o :: _ => .error ("f-string: unmatched '".toList ++ [o, '\''])
      | [] => if t.isEmpty then .error expectingBrace else .ok (acc.reverse, t)
  /-- The words about a field that is not closed. -/
  expectingBrace : Text := "f-string: expecting '\x7d'".toList

/-- Blanks that the expression of a field may hold around it. -/
def isFieldBlank (c : Char) : Bool := c = ' ' || c = '\t' || c = '\n' || c = '\x0c'

/-- Blanks skipped after the equals sign of a field. -/
def isPlainBlank (c : Char) : Bool := c = ' ' || (9 ≤ c.toNat && c.toNat ≤ 13)

/-- The number of line feeds in a text. -/
def lineFeeds (t : Text) : Nat := t.count '\n'

/-- The pieces of a formatted string from a place whose line is known, and what
is left when the pieces are the format of an outer field.  `depth` is zero for
the string itself. -/
def pieces (data : CharacterData) (raw : Bool) : Nat → Nat → Nat → Text → List Piece × Text
  | 0, _, _, t => ([], t)
  | fuel + 1, depth, line, t =>
      match literalHead raw (depth == 0) (t.length + 1) [] t with
      | .error message => ([.fault message], [])
      | .ok (source, doubled, rest) =>
          let line := line + lineFeeds source
          let literal : List Piece :=
            if source.isEmpty then []
            else
              match textValue data raw source with
              | .ok codes => [.literal codes]
              | .error message => [.fault message]
          if doubled then
            let (more, rest) := pieces data raw fuel depth line rest
            (literal ++ more, rest)
          else
            match rest with
            | [] => (literal, [])
            | c :: inner =>
                if c = '\x7d' then (literal, rest)
                else if 2 ≤ depth then
                  (literal ++ [.fault "f-string: expressions nested too deeply".toList], [])
                else
                  let (field, after, afterLine) := fieldPieces fuel depth line inner
                  match after with
                  | none => (literal ++ field, [])
                  | some after =>
                      let (more, rest) := pieces data raw fuel depth afterLine after
                      (literal ++ field ++ more, rest)
where
  /-- The pieces of one field, what follows it and the line there; nothing
  follows a faulty field. -/
  fieldPieces (fuel depth line : Nat) (t : Text) : List Piece × Option Text × Nat :=
    match fieldSource (t.length + 1) ⟨none, []⟩ [] t with
    | .error message => ([.fault message], none, line)
    | .ok (source, rest) =>
        let ending := rest.head?.getD '\x7d'
        if source.all isFieldBlank then
          if ending = '!' || ending = ':' || ending = '=' then
            ([.fault ("f-string: expression required before '".toList ++ [ending, '\''])], none,
              line)
          else ([.fault "f-string: empty expression not allowed".toList], none, line)
        else
          let (shownText, rest) :=
            if ending = '=' then
              let blanks := (rest.drop 1).takeWhile isPlainBlank
              (some (source ++ '=' :: blanks), rest.drop (1 + blanks.length))
            else (none, rest)
          let debug : List Piece :=
            match shownText with
            | some t => [.literal (t.map Char.toNat)]
            | none => []
          let bare : Piece := .field source line none none
          let faulty := fun (message : Text) => ([bare, Piece.fault message], none, line)
          let lineHere := line + lineFeeds (shownText.getD source)
          let (conversion, rest) :=
            match rest with
            | '!' :: more =>
                let letters := more.takeWhile fun c => c != '\x7d' && c != ':'
                (some letters, more.drop letters.length)
            | _ => (none, rest)
          if rest.isEmpty then faulty closing
          else if !goodConversion conversion then faulty badConversion
          else
            let letter := conversion.bind List.head?
            match rest with
            | ':' :: more =>
                if more.isEmpty then faulty closing
                else
                  let (spec, rest) := pieces data raw fuel (depth + 1) lineHere more
                  let specLines := lineFeeds (more.take (more.length - rest.length))
                  match rest with
                  | '\x7d' :: after =>
                      (debug ++ [.field source line letter (some spec)], some after,
                        lineHere + specLines)
                  | _ =>
                      ([.field source line letter (some (spec ++ [.fault closing]))], none, line)
            | '\x7d' :: after =>
                let letter := if shownText.isSome && letter.isNone then some 'r' else letter
                (debug ++ [.field source line letter none], some after, lineHere)
            | _ => faulty closing
  /-- Whether there is no conversion, or one of the three letters. -/
  goodConversion : Option Text → Bool
    | none => true
    | some [c] => c = 's' || c = 'r' || c = 'a'
    | some _ => false
  /-- The words about a conversion. -/
  badConversion : Text :=
    "f-string: invalid conversion character: expected 's', 'r', or 'a'".toList
  /-- The words about a field that is not closed. -/
  closing : Text := "f-string: expecting '\x7d'".toList

/-- All pieces of the body of a formatted string that starts on a line. -/
def formatted (data : CharacterData) (raw : Bool) (line : Nat) (body : Text) : List Piece :=
  let (found, rest) := pieces data raw (body.length + 1) 0 line body
  if rest.isEmpty then found
  else found ++ [.fault "f-string: single '\x7d' is not allowed".toList]

/-! ### Numbers -/

/-- The greatest number of digits of a whole decimal number. -/
def maxDigits : Nat := 4300

/-- Whether a number token is imaginary. -/
def isImaginary (t : Text) : Bool := t.getLast? = some 'j' || t.getLast? = some 'J'

/-- Whether a number token is a whole decimal number with too many digits. -/
def isTooLong (t : Text) : Bool :=
  t.all (fun c => c.isDigit || c = '_') && maxDigits < (t.filter Char.isDigit).length

end DocPress.Docstring.Literal
