import DocPress.Config.Value
import DocPress.Decimal.Nearest
import DocPress.Decimal.Scientific

/-!
# Messages with arguments

A message may have places for arguments, each marked by a percent sign and a
letter that says how its argument is written.  Between them stand a key, flags,
a width and a precision, all optional.
-/

namespace DocPress.Log

/-- Why a message cannot be made. -/
inductive MessageError where
  /-- The arguments do not fit the places, in number or in kind. -/
  | badArguments
  /-- The template is against the rules. -/
  | badTemplate (message : Text)
  /-- A number is too large for its place. -/
  | tooLarge
  /-- No argument has the key of a place. -/
  | missingKey (key : Text)
deriving DecidableEq, Inhabited

/-- The arguments of a message: one for each place, or one value that places
may also ask for by key. -/
inductive Arguments where
  | row (values : List Value)
  | keyed (value : Value) (entries : List (Value × Value)) (used : Bool)

/-- How an argument is written. -/
structure Spec where
  left : Bool
  plus : Bool
  blank : Bool
  alternate : Bool
  zero : Bool
  width : Nat
  precision : Option Nat
deriving DecidableEq, Inhabited

namespace Spec

/-- A place without flags. -/
def plain : Spec := ⟨false, false, false, false, false, 0, none⟩

/-- Set the flag of a character, if it is one. -/
def flag? (s : Spec) (c : Char) : Option Spec :=
  if c = '-' then some { s with left := true }
  else if c = '+' then some { s with plus := true }
  else if c = ' ' then some { s with blank := true }
  else if c = '#' then some { s with alternate := true }
  else if c = '0' then some { s with zero := true }
  else none

/-- Read flags. -/
def flags (s : Spec) : Text → Spec × Text
  | [] => (s, [])
  | c :: rest =>
      match s.flag? c with
      | some s => s.flags rest
      | none => (s, c :: rest)

/-- A text filled up with spaces to the width. -/
def fillText (s : Spec) (t : Text) : Text :=
  let space := List.replicate (s.width - t.length) ' '
  if s.left then t ++ space else space ++ t

/-- A number filled up to the width, with zeros between its sign and its digits
if asked for. -/
def fillNumber (s : Spec) (negative : Bool) (mark digits : Text) : Text :=
  let sign : Text :=
    if negative then ['-'] else if s.plus then ['+'] else if s.blank then [' '] else []
  let whole := sign ++ mark ++ digits
  if s.left then s.fillText whole
  else if s.zero then
    sign ++ mark ++ List.replicate (s.width - whole.length) '0' ++ digits
  else s.fillText whole

end Spec

/-- A text with everything outside ASCII escaped. -/
def asciiOnly (t : Text) : Text :=
  t.flatMap fun c =>
    if c.toNat < 128 then [c]
    else if c.toNat < 0x100 then '\\' :: 'x' :: Text.hex 2 c.toNat
    else if c.toNat < 0x10000 then '\\' :: 'u' :: Text.hex 4 c.toNat
    else '\\' :: 'U' :: Text.hex 8 c.toNat

/-- The whole number of a value; numbers with a fraction are cut if allowed. -/
def wholeNumber (cut : Bool) : Value → Except MessageError Int
  | .int n => .ok n
  | .bool b => .ok (if b then 1 else 0)
  | .float x =>
      if !cut then .error .badArguments
      else if x.isNaN then .error (.badTemplate "cannot convert float NaN to integer".toList)
      else if x.isInf then .error .tooLarge
      else
        let (n, d) := Decimal.fraction x
        .ok (if x < 0 then -(n / d : Nat) else (n / d : Nat))
  | _ => .error .badArguments

/-- The number of a value. -/
def realNumber : Value → Except MessageError Float
  | .float x => .ok x
  | .bool b => .ok (if b then 1 else 0)
  | .int n =>
      match Decimal.floatOfInt? n with
      | some x => .ok x
      | none => .error .tooLarge
  | _ => .error .badArguments

/-- Digits in capital letters. -/
def capitals (t : Text) : Text := t.map Char.toUpper

/-- A whole number as an argument. -/
def writeWhole (s : Spec) (kind : Char) (n : Int) : Text :=
  let base := if kind = 'x' || kind = 'X' then 16 else if kind = 'o' then 8 else 10
  let digits := Nat.toDigits base n.natAbs
  let digits := List.replicate (s.precision.getD 0 - digits.length) '0' ++ digits
  let mark : Text :=
    if !s.alternate || base = 10 then [] else if base = 16 then ['0', 'x'] else ['0', 'o']
  if kind = 'X' then s.fillNumber (n < 0) (capitals mark) (capitals digits)
  else s.fillNumber (n < 0) mark digits

/-- A number as an argument. -/
def writeReal (s : Spec) (kind : Char) (x : Float) : Text :=
  let places := s.precision.getD 6
  let small := kind.toLower
  let t :=
    if small = 'f' then
      let t := Decimal.fixed places x
      if s.alternate && places = 0 && !x.isNaN && !x.isInf then t ++ ['.'] else t
    else if small = 'e' then Decimal.scientific places s.alternate x
    else Decimal.general places s.alternate x
  let t := if kind.isUpper then capitals t else t
  match t with
  | '-' :: digits => s.fillNumber true [] digits
  | digits => s.fillNumber false [] digits

/-- A single character as an argument. -/
def writeChar (v : Value) : Except MessageError Text :=
  match v with
  | .text [c] => .ok [c]
  | .text _ => .error .badArguments
  | v => do
      let n ← wholeNumber false v
      if n < 0 || 0x10FFFF < n then .error .tooLarge else .ok [Char.ofNat n.toNat]

/-- An argument in its place.  The position is that of the letter. -/
def writeArgument (s : Spec) (kind : Char) (position : Nat) (v : Value) :
    Except MessageError Text :=
  let cut := fun (t : Text) => match s.precision with
    | some n => t.take n
    | none => t
  if kind = 's' then .ok (s.fillText (cut v.toText))
  else if kind = 'r' then .ok (s.fillText (cut v.shown))
  else if kind = 'a' then .ok (s.fillText (cut (asciiOnly v.shown)))
  else if kind = 'c' then do .ok (s.fillText (← writeChar v))
  else if kind = 'd' || kind = 'i' || kind = 'u' then do
    .ok (writeWhole s kind (← wholeNumber true v))
  else if kind = 'x' || kind = 'X' || kind = 'o' then do
    .ok (writeWhole s kind (← wholeNumber false v))
  else if ['e', 'E', 'f', 'F', 'g', 'G'].contains kind then do
    .ok (writeReal s kind (← realNumber v))
  else
    let shown := if 31 ≤ kind.toNat && kind.toNat ≤ 126 then kind else '?'
    .error (.badTemplate ("unsupported format character '".toList ++ shown :: "' (0x".toList
      ++ Nat.toDigits 16 kind.toNat ++ ") at index ".toList ++ Text.ofNat position))

namespace Arguments

/-- The next argument and those after it. -/
def next : Arguments → Except MessageError (Value × Arguments)
  | row (v :: more) => .ok (v, row more)
  | row [] => .error .badArguments
  | keyed v entries used =>
      if used then .error .badArguments else .ok (v, keyed v entries true)

/-- Whether arguments are left over. -/
def areLeft : Arguments → Bool
  | row values => !values.isEmpty
  | keyed _ _ _ => false

end Arguments

/-- The text up to the bracket that closes a key; `depth` counts brackets that
are open. -/
def key? (depth : Nat) : Text → Option (Text × Text)
  | [] => none
  | c :: rest =>
      if c = ')' && depth = 0 then some ([], rest)
      else
        let depth := if c = '(' then depth + 1 else if c = ')' then depth - 1 else depth
        (key? depth rest).map fun k => (c :: k.1, k.2)

/-- The greatest width of a place. -/
def mostWidth : Nat := 9223372036854775807

/-- The greatest precision of a place. -/
def mostPrecision : Nat := 2147483647

/-- A number written in a place, or taken from the arguments.  It must not be
beyond the given bound. -/
def measure (what : String) (most : Nat) (args : Arguments) (t : Text) :
    Except MessageError (Int × Arguments × Text) :=
  let taken := fun (n : Int) (args : Arguments) (rest : Text) =>
    if n < -(most : Int) - 1 || (most : Int) < n then .error MessageError.tooLarge
    else .ok (n, args, rest)
  match t with
  | '*' :: rest => do
      let (v, args) ← args.next
      match v with
      | .int n => taken n args rest
      | .bool b => taken (if b then 1 else 0) args rest
      | _ => .error .badArguments
  | t =>
      let digits := t.takeWhile Char.isDigit
      let n := digits.foldl (fun n c => n * 10 + (c.toNat - 48)) 0
      if most < n then .error (.badTemplate (what.toList ++ " too big".toList))
      else .ok (n, args, t.drop digits.length)

/-- The text of a place and what follows it.  `size` is the length of the whole
template, from which positions are counted. -/
def place (size : Nat) (args : Arguments) (t : Text) :
    Except MessageError (Text × Arguments × Text) := do
  let (found, t) ← match t with
    | '(' :: rest =>
        match args with
        | .row _ => .error .badArguments
        | .keyed _ entries _ =>
            match key? 0 rest with
            | none => .error (.badTemplate "incomplete format key".toList)
            | some (key, after) =>
                match Value.lookup? entries key with
                | none => .error (.missingKey key)
                | some v => .ok (some v, after)
    | t => .ok (none, t)
  -- A value found by key takes the place of all arguments.
  let inner := match found with
    | some v => Arguments.keyed v [] false
    | none => args
  let (s, t) := Spec.plain.flags t
  let (width, inner, t) ← measure "width" mostWidth inner t
  let s := { s with left := s.left || width < 0, width := width.natAbs }
  let (s, inner, t) ← match t with
    | '.' :: rest => do
        let (precision, inner, rest) ← measure "precision" mostPrecision inner rest
        .ok ({ s with precision := some precision.toNat }, inner, rest)
    | t => .ok (s, inner, t)
  let t := match t with
    | 'h' :: rest => rest
    | 'l' :: rest => rest
    | 'L' :: rest => rest
    | t => t
  match t with
  | [] => .error (.badTemplate "incomplete format".toList)
  | kind :: rest =>
      let back := fun inner => match found, args with
        | some _, .keyed v entries _ => Arguments.keyed v entries true
        | _, _ => inner
      let (v, inner) ← inner.next
      .ok (← writeArgument s kind (size - t.length) v, back inner, rest)

/-- The text of a template; at most `fuel` characters are read. -/
def fill (size : Nat) : Nat → Arguments → Text → Except MessageError Text
  | 0, _, _ => .ok []
  | fuel + 1, args, t =>
      match t with
      | [] => if args.areLeft then .error .badArguments else .ok []
      | '%' :: '%' :: rest => do .ok ('%' :: (← fill size fuel args rest))
      | '%' :: rest => do
          let (text, args, rest) ← place size args rest
          .ok (text ++ (← fill size fuel args rest))
      | c :: rest => do .ok (c :: (← fill size fuel args rest))

/-- A message from its template and arguments.  Without arguments the template
is the message; a single mapping may also be asked for by key. -/
def message (template : Text) (args : List Value) : Except MessageError Text :=
  match args with
  | [] => .ok template
  | [.map (e :: more)] =>
      fill template.length (template.length + 1) (.keyed (.map (e :: more)) (e :: more) false)
        template
  | args => fill template.length (template.length + 1) (.row args) template

end DocPress.Log
