import DocPress.Text.Basic

/-!
# Kinds of plain scalars

A plain scalar without a tag is a truth value, a number, a date or nothing
when its text looks like one, and a text otherwise.
-/

namespace DocPress.Yaml

open Text

/-- The kinds of scalars. -/
inductive Kind where
  | null
  | bool
  | int
  | float
  | timestamp
  | merge
  | value
  | str
deriving DecidableEq

/-- The words for truth values. -/
def boolWords : List Text :=
  ["yes", "Yes", "YES", "no", "No", "NO", "true", "True", "TRUE", "false", "False", "FALSE",
    "on", "On", "ON", "off", "Off", "OFF"].map String.toList

/-- The words for nothing. -/
def nullWords : List Text := ["~", "null", "Null", "NULL", ""].map String.toList

/-- The words for infinity after the sign. -/
def infinityWords : List Text := [".inf", ".Inf", ".INF"].map String.toList

/-- The words for no number. -/
def nanWords : List Text := [".nan", ".NaN", ".NAN"].map String.toList

/-- A text without its sign. -/
def unsigned (t : Text) : Text :=
  match t with
  | '-' :: rest => rest
  | '+' :: rest => rest
  | rest => rest

/-- Digits and underscores. -/
def isDigitMark (c : Char) : Bool := c.isDigit || c = '_'

/-- Parts of a number to base sixty after its first: each a colon and one or
two digits below sixty.  The rest is what follows them; there is at least one. -/
def sixties? : Nat → Text → Option Text
  | 0, _ => none
  | fuel + 1, t =>
      match t with
      | ':' :: a :: b :: rest =>
          if a.isDigit && a ≤ '5' && b.isDigit then again fuel rest
          else if a.isDigit then again fuel (b :: rest)
          else none
      | ':' :: a :: rest => if a.isDigit then again fuel rest else none
      | _ => none
where
  /-- Further parts, if there are any. -/
  again (fuel : Nat) (rest : Text) : Option Text := (sixties? fuel rest).or (some rest)

/-- Whether a text is a whole number. -/
def isInt (t : Text) : Bool :=
  let u := unsigned t
  match u with
  | [] => false
  | '0' :: 'b' :: digits => !digits.isEmpty && digits.all fun c => c = '0' || c = '1' || c = '_'
  | '0' :: 'x' :: digits =>
      !digits.isEmpty && digits.all fun c =>
        c.isDigit || c = '_' || ('a' ≤ c && c ≤ 'f') || ('A' ≤ c && c ≤ 'F')
  | '0' :: digits => digits.all fun c => ('0' ≤ c && c ≤ '7') || c = '_'
  | c :: rest =>
      if c.isDigit then
        let after := rest.dropWhile isDigitMark
        after.isEmpty || sixties? (after.length + 1) after = some []
      else false

/-- Whether a text is an exponent with its sign, or empty. -/
def isExponent (t : Text) : Bool :=
  match t with
  | [] => true
  | e :: s :: digits =>
      (e = 'e' || e = 'E') && (s = '-' || s = '+') && !digits.isEmpty && digits.all Char.isDigit
  | _ => false

/-- Whether a text is a number with a point. -/
def isFloat (t : Text) : Bool :=
  let u := unsigned t
  pointed u || fraction t || (startsDigit u && sixty (u.dropWhile isDigitMark))
    || infinityWords.contains u || nanWords.contains t
where
  /-- Whether the first character is a digit. -/
  startsDigit (u : Text) : Bool := (u.head?.map Char.isDigit).getD false
  /-- Digits, a point, perhaps more digits and an exponent. -/
  pointed (u : Text) : Bool :=
    startsDigit u &&
      match u.dropWhile isDigitMark with
      | '.' :: rest => isExponent (rest.dropWhile isDigitMark)
      | _ => false
  /-- A point, digits and an exponent. -/
  fraction (t : Text) : Bool :=
    match t with
    | '.' :: d :: rest => d.isDigit && isExponent (rest.dropWhile isDigitMark)
    | _ => false
  /-- Parts to base sixty with a point after the last. -/
  sixty (t : Text) : Bool :=
    match sixties? (t.length + 1) t with
    | some ('.' :: rest) => rest.all isDigitMark
    | _ => false

/-! ### Timestamps -/

/-- A timestamp as it is written. -/
structure Timestamp where
  year : Text
  month : Text
  day : Text
  /-- Hour, minute, second, fraction and zone. -/
  clock : Option (Text × Text × Text × Text × Text)
deriving DecidableEq

/-- One or two digits, and the rest. -/
def upToTwoDigits? (t : Text) : Option (Text × Text) :=
  let digits := (t.take 2).takeWhile Char.isDigit
  if digits.isEmpty then none else some (digits, t.drop digits.length)

/-- A fixed number of digits, and the rest. -/
def digits? (n : Nat) (t : Text) : Option (Text × Text) :=
  let digits := t.take n
  if digits.length = n && digits.all Char.isDigit then some (digits, t.drop n) else none

/-- A zone: a letter or a sign, hours and perhaps minutes. -/
def isZone (t : Text) : Bool :=
  match t with
  | [] => true
  | ['Z'] => true
  | s :: rest =>
      (s = '-' || s = '+') &&
        match upToTwoDigits? rest with
        | some (_, []) => true
        | some (_, ':' :: minutes) => minutes.length = 2 && minutes.all Char.isDigit
        | _ => false

/-- The time of day of a timestamp after its date. -/
def clock? (t : Text) : Option (Text × Text × Text × Text × Text) := do
  let t ← match t with
    | 'T' :: rest => some rest
    | 't' :: rest => some rest
    | c :: rest =>
        if c = ' ' || c = '\t' then some (rest.dropWhile fun c => c = ' ' || c = '\t') else none
    | [] => none
  let (hour, t) ← upToTwoDigits? t
  let (minute, t) ← digits? 2 (← after? [':'] t)
  let (second, t) ← digits? 2 (← after? [':'] t)
  let (fraction, t) := match t with
    | '.' :: rest => (rest.takeWhile Char.isDigit, rest.dropWhile Char.isDigit)
    | _ => ([], t)
  let blanks := t.dropWhile fun c => c = ' ' || c = '\t'
  let zone := if blanks.isEmpty then t else blanks
  if isZone zone then some (hour, minute, second, fraction, zone) else none

/-- The parts of a timestamp. -/
def timestamp? (t : Text) : Option Timestamp := do
  let (year, t) ← digits? 4 t
  let (month, t) ← upToTwoDigits? (← after? ['-'] t)
  let (day, t) ← upToTwoDigits? (← after? ['-'] t)
  match t with
  | [] => some ⟨year, month, day, none⟩
  | t => do some ⟨year, month, day, some (← clock? t)⟩

/-- Whether a plain scalar is a timestamp.  A date alone has two digits for month
and day. -/
def isTimestamp (t : Text) : Bool :=
  match timestamp? t with
  | some s => s.clock.isSome || (s.month.length = 2 && s.day.length = 2)
  | none => false

/-- The kind of a plain scalar. -/
def kindOf (t : Text) : Kind :=
  if boolWords.contains t then .bool
  else if isFloat t then .float
  else if isInt t then .int
  else if t = ['<', '<'] then .merge
  else if nullWords.contains t then .null
  else if isTimestamp t then .timestamp
  else if t = ['='] then .value
  else .str

end DocPress.Yaml
