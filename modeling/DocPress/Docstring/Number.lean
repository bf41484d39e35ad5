import DocPress.Decimal.Nearest
import DocPress.Docstring.Literal

/-!
# Canonical text of numbers

A number literal is written by its value: whole numbers in decimal, others by
the shortest decimal of the nearest double.  A value beyond all doubles is
written as a literal that is beyond them too.
-/

namespace DocPress.Docstring.Number

open Text

/-- The value of a digit in bases up to sixteen. -/
def digitValue (c : Char) : Nat := ((Ranges.hexDigit? c).getD 0)

/-- The value of digits in a base. -/
def valueIn (base : Nat) (digits : Text) : Nat :=
  digits.foldl (fun n c => n * base + digitValue c) 0

/-- A decimal with an optional fraction and exponent. -/
def decimalOf (t : Text) : Decimal :=
  let mantissa := t.takeWhile fun c => c != 'e' && c != 'E'
  let tail := t.drop (mantissa.length + 1)
  let whole := mantissa.takeWhile (· != '.')
  let fraction := mantissa.drop (whole.length + 1)
  let power : Int := match tail with
    | '-' :: digits => -(valueIn 10 digits : Int)
    | '+' :: digits => valueIn 10 digits
    | digits => valueIn 10 digits
  ⟨false, valueIn 10 (whole ++ fraction), power - fraction.length⟩

/-- A literal beyond all doubles. -/
def infinite : Text := "1e309".toList

/-- The text of a double without sign. -/
def doubleText (x : Float) : Text :=
  if x.isInf then infinite else Decimal.floatText x

/-- A text without a fraction of zero. -/
def dropZeroFraction (t : Text) : Text := (before? ['.', '0'] t).getD t

/-- Whether a literal is a whole number. -/
def isWhole (t : Text) : Bool :=
  match t with
  | '0' :: c :: _ =>
      if c.isAlpha && c != 'e' && c != 'E' && c != 'j' && c != 'J' then true else plain
  | _ => plain
where
  /-- Whether there is neither fraction, exponent nor imaginary mark. -/
  plain : Bool := t.all fun c => c.isDigit || c = '_'

/-- The canonical text of a number literal. -/
def canonical (literal : Text) : Text :=
  let t := literal.filter (· != '_')
  if isWhole t then
    match t with
    | '0' :: 'x' :: digits | '0' :: 'X' :: digits => Text.ofNat (valueIn 16 digits)
    | '0' :: 'o' :: digits | '0' :: 'O' :: digits => Text.ofNat (valueIn 8 digits)
    | '0' :: 'b' :: digits | '0' :: 'B' :: digits => Text.ofNat (valueIn 2 digits)
    | digits => Text.ofNat (valueIn 10 digits)
  else if Literal.isImaginary t then
    dropZeroFraction (doubleText (decimalOf t.dropLast).toFloat) ++ ['j']
  else doubleText (decimalOf t).toFloat

end DocPress.Docstring.Number
