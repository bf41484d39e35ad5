import DocPress.Json.Basic
import DocPress.Text.Ranges

/-!
# Reading JSON

A recursive reader over the characters.  Each step gives back the rest of the
text; the fuel of the value reader is the length of the input, which no nesting
exceeds.
-/

namespace DocPress.Json

/-- Blanks between the tokens of JSON. -/
def isSpace (c : Char) : Bool := c = ' ' || c = '\n' || c = '\r' || c = '\t'

/-- The text after leading blanks. -/
def skipSpace (t : Text) : Text := t.dropWhile isSpace

/-- A 16-bit unit of four hexadecimal digits. -/
def unit? : Text → Option (Nat × Text)
  | a :: b :: c :: d :: rest => do
      let a ← Text.Ranges.hexDigit? a
      let b ← Text.Ranges.hexDigit? b
      let c ← Text.Ranges.hexDigit? c
      let d ← Text.Ranges.hexDigit? d
      some (a * 4096 + b * 256 + c * 16 + d, rest)
  | _ => none

/-- The character after a backslash, and the text that follows it.  Two units
that form a pair make one character. -/
def escape? : Text → Option (Char × Text)
  | '"' :: rest => some ('"', rest)
  | '\\' :: rest => some ('\\', rest)
  | '/' :: rest => some ('/', rest)
  | 'b' :: rest => some ('\x08', rest)
  | 'f' :: rest => some ('\x0c', rest)
  | 'n' :: rest => some ('\n', rest)
  | 'r' :: rest => some ('\r', rest)
  | 't' :: rest => some ('\t', rest)
  | 'u' :: rest => do
      let (n, rest) ← unit? rest
      if 0xD800 ≤ n && n < 0xDC00 then
        match rest with
        | '\\' :: 'u' :: more => do
            let (m, more) ← unit? more
            if 0xDC00 ≤ m && m < 0xE000 then
              some (Char.ofNat (0x10000 + (n - 0xD800) * 0x400 + (m - 0xDC00)), more)
            else none
        | _ => none
      else if 0xDC00 ≤ n && n < 0xE000 then none
      else some (Char.ofNat n, rest)
  | _ => none

/-- The characters of a string after its opening quotation mark. -/
def string? : Nat → Text → Option (Text × Text)
  | 0, _ => none
  | _, [] => none
  | fuel + 1, c :: rest =>
      if c = '"' then some ([], rest)
      else if c = '\\' then do
        let (e, rest) ← escape? rest
        let (t, rest) ← string? fuel rest
        some (e :: t, rest)
      else do
        let (t, rest) ← string? fuel rest
        some (c :: t, rest)

/-- The value of a run of decimal digits. -/
def natOfDigits (t : Text) : Nat := t.foldl (fun n c => n * 10 + (c.toNat - 48)) 0

/-- The exponent part of a number, if one stands here. -/
def exponent? : Text → Option (Int × Text)
  | c :: rest =>
      if c = 'e' || c = 'E' then
        let (negative, rest) :=
          match rest with
          | '-' :: more => (true, more)
          | '+' :: more => (false, more)
          | more => (false, more)
        let digits := rest.takeWhile Char.isDigit
        if digits.isEmpty then none
        else
          let n : Int := natOfDigits digits
          some (if negative then -n else n, rest.dropWhile Char.isDigit)
      else none
  | [] => none

/-- A number without its sign. -/
def unsigned? (negative : Bool) (t : Text) : Option (Json × Text) :=
  let whole := t.takeWhile Char.isDigit
  if whole.isEmpty then none
  else
    let rest := t.dropWhile Char.isDigit
    let (fraction, rest) :=
      match rest with
      | '.' :: more =>
          let f := more.takeWhile Char.isDigit
          if f.isEmpty then ([], rest) else (f, more.dropWhile Char.isDigit)
      | _ => ([], rest)
    let (exponent, rest) :=
      match exponent? rest with
      | some (e, more) => (some e, more)
      | none => (none, rest)
    if fraction.isEmpty && exponent.isNone then
      let n : Int := natOfDigits whole
      some (int (if negative then -n else n), rest)
    else
      some (decimal (Decimal.reduced
        ⟨negative, natOfDigits (whole ++ fraction), exponent.getD 0 - fraction.length⟩), rest)

/-- A literal word or a number. -/
def scalar? (t : Text) : Option (Json × Text) :=
  match Text.after? ['n', 'u', 'l', 'l'] t with
  | some rest => some (null, rest)
  | none =>
  match Text.after? ['t', 'r', 'u', 'e'] t with
  | some rest => some (bool true, rest)
  | none =>
  match Text.after? ['f', 'a', 'l', 's', 'e'] t with
  | some rest => some (bool false, rest)
  | none =>
  match Text.after? ['N', 'a', 'N'] t with
  | some rest => some (nan, rest)
  | none =>
  match Text.after? ['I', 'n', 'f', 'i', 'n', 'i', 't', 'y'] t with
  | some rest => some (infinity false, rest)
  | none =>
  match Text.after? ['-', 'I', 'n', 'f', 'i', 'n', 'i', 't', 'y'] t with
  | some rest => some (infinity true, rest)
  | none =>
  match t with
  | '-' :: rest => unsigned? true rest
  | _ => unsigned? false t

mutual

/-- A value at the head of a text that starts with no blank. -/
def value? : Nat → Text → Option (Json × Text)
  | 0, _ => none
  | fuel + 1, t =>
      match t with
      | '"' :: rest => do
          let (s, rest) ← string? (rest.length + 1) rest
          some (text s, rest)
      | '[' :: rest =>
          match skipSpace rest with
          | ']' :: more => some (array [], more)
          | rest => do
              let (items, rest) ← items? fuel rest
              some (array items, rest)
      | '\x7b' :: rest =>
          match skipSpace rest with
          | '\x7d' :: more => some (object [], more)
          | rest => do
              let (fields, rest) ← fields? fuel rest
              some (object fields, rest)
      | _ => scalar? t

/-- The items of an array up to its closing bracket. -/
def items? : Nat → Text → Option (List Json × Text)
  | 0, _ => none
  | fuel + 1, t => do
      let (v, rest) ← value? fuel t
      match skipSpace rest with
      | ']' :: more => some ([v], more)
      | ',' :: more => do
          let (vs, rest) ← items? fuel (skipSpace more)
          some (v :: vs, rest)
      | _ => none

/-- The fields of an object up to its closing brace. -/
def fields? : Nat → Text → Option (List (Text × Json) × Text)
  | 0, _ => none
  | fuel + 1, t =>
      match t with
      | '"' :: rest => do
          let (k, rest) ← string? (rest.length + 1) rest
          match skipSpace rest with
          | ':' :: more => do
              let (v, rest) ← value? fuel (skipSpace more)
              match skipSpace rest with
              | '\x7d' :: more => some ([(k, v)], more)
              | ',' :: more => do
                  let (fs, rest) ← fields? fuel (skipSpace more)
                  some ((k, v) :: fs, rest)
              | _ => none
          | _ => none
      | _ => none

end

/-- Read a whole text as one JSON value. -/
def parse (t : Text) : Option Json :=
  match value? (t.length + 1) (skipSpace t) with
  | some (v, rest) => if (skipSpace rest).isEmpty then some v else none
  | none => none

end DocPress.Json
