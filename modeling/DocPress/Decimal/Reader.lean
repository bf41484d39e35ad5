import DocPress.Decimal.Nearest
import DocPress.Text.Digit

/-!
# Reading numbers

The text of a number may have blanks around it, a sign, single underscores
between digits, a fraction and an exponent.  Digits of any script count.
-/

namespace DocPress.Decimal

open Text

/-- Blanks around a number. -/
def isNumberBlank (c : Char) : Bool := c = ' ' || (9 ≤ c.toNat && c.toNat ≤ 13)

/-- A character of a number in plain form: digits of other scripts become
plain digits, blanks become spaces, and everything else is kept out. -/
def plainChar (c : Char) : Char :=
  if c.toNat < 127 then c
  else if isBlank c then ' '
  else
    match digitValue? c with
    | some n => Char.ofNat (48 + n)
    | none => '?'

/-- A text in plain form. -/
def plainForm (t : Text) : Text :=
  if t.all fun c => c.toNat < 128 then t else t.map plainChar

/-- A text without its underscores, each of which must stand between digits. -/
def withoutUnderscores? (before : Char) : Text → Option Text
  | [] => some []
  | c :: rest =>
      if c = '_' then
        if before.isDigit && ((rest.head?.map Char.isDigit).getD false) then
          withoutUnderscores? c rest
        else none
      else (withoutUnderscores? c rest).map (c :: ·)

/-- The value of plain digits. -/
def digitsValue (t : Text) : Nat := t.foldl (fun n c => n * 10 + (c.toNat - 48)) 0

/-- An exponent after its mark. -/
def exponent? (t : Text) : Option Int :=
  let read := fun (digits : Text) =>
    if digits.isEmpty || !digits.all Char.isDigit then none else some (digitsValue digits : Int)
  match t with
  | '-' :: digits => (read digits).map fun n => -n
  | '+' :: digits => read digits
  | digits => read digits

/-- An unsigned decimal. -/
def unsigned? (t : Text) : Option Decimal :=
  let whole := t.takeWhile Char.isDigit
  let rest := t.drop whole.length
  let (fraction, rest) := match rest with
    | '.' :: more =>
        let digits := more.takeWhile Char.isDigit
        (digits, more.drop digits.length)
    | _ => ([], rest)
  if whole.isEmpty && fraction.isEmpty then none
  else
    let make := fun (e : Int) =>
      (⟨false, digitsValue (whole ++ fraction), e - fraction.length⟩ : Decimal)
    match rest with
    | [] => some (make 0)
    | 'e' :: more => (exponent? more).map make
    | 'E' :: more => (exponent? more).map make
    | _ => none

/-- An unsigned number, which may be infinite or no number. -/
def unsignedFloat? (t : Text) : Option Float :=
  let word := t.map Char.toLower
  if word = "inf".toList || word = "infinity".toList then some (1.0 / 0.0)
  else if word = "nan".toList then some (0.0 / 0.0)
  else (unsigned? t).map Decimal.toFloat

/-- The number that a text writes. -/
def float? (t : Text) : Option Float := do
  let t := plainForm t
  let t := ((t.dropWhile isNumberBlank).reverse.dropWhile isNumberBlank).reverse
  let t ← withoutUnderscores? ' ' t
  match t with
  | '-' :: rest => (unsignedFloat? rest).map fun x => -x
  | '+' :: rest => unsignedFloat? rest
  | rest => unsignedFloat? rest

end DocPress.Decimal
