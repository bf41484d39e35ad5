import DocPress.Decimal.Fixed

/-!
# Significant digits

A double with a fixed number of significant digits, rounded exactly, in
scientific notation or in the shorter of both notations.
-/

namespace DocPress.Decimal

/-- The numerator and denominator of the absolute value of a finite double. -/
def fraction (x : Float) : Nat × Nat :=
  let b := Binary.ofBits (x.toBits.toNat % Nat.pow 2 63)
  (b.mantissa * Nat.pow 2 b.exponent.toNat, Nat.pow 2 (-b.exponent).toNat)

/-- The power of ten of the first digit of `n / d`, for positive numbers. -/
def leadingExponent (n d : Nat) : Int :=
  if d ≤ n then (Text.ofNat (n / d)).length - 1
  else
    let zeros := (Text.ofNat (d / n)).length
    if d ≤ n * Nat.pow 10 (zeros - 1) then 1 - (zeros : Int) else -(zeros : Int)

/-- The first `count` digits of `n / d` as one number, and the power of ten of
the first of them. -/
def significant (count n d : Nat) : Nat × Int :=
  if n = 0 then (0, 0)
  else
    let e := leadingExponent n d
    let shift : Int := (count : Int) - 1 - e
    let r := roundDiv (n * Nat.pow 10 shift.toNat) (d * Nat.pow 10 (-shift).toNat)
    if r = Nat.pow 10 count then (r / 10, e + 1) else (r, e)

/-- The name of a value that is no number, or the text of its absolute value
with a sign in front. -/
def signed (x : Float) (text : Unit → Text) : Text :=
  let sign : Text := if Nat.pow 2 63 ≤ x.toBits.toNat && !x.isNaN then ['-'] else []
  sign ++ (if x.isNaN then ['n', 'a', 'n'] else if x.isInf then ['i', 'n', 'f'] else text ())

/-- A text without the zeros at its end, nor a point that they leave there. -/
def withoutZeros (t : Text) : Text :=
  if t.contains '.' then
    let r := t.reverse.dropWhile (· = '0')
    (if r.head? = some '.' then r.drop 1 else r).reverse
  else t

/-- Digits with a point after the first; a point with nothing after it is kept
only if asked for. -/
def pointed (keepPoint : Bool) (digits : Text) : Text :=
  match digits with
  | [] => []
  | [d] => if keepPoint then [d, '.'] else [d]
  | d :: more => d :: '.' :: more

/-- A double in scientific notation with the given number of decimal places. -/
def scientific (places : Nat) (keepPoint : Bool) (x : Float) : Text :=
  signed x fun _ =>
    let (n, d) := fraction x
    let (digits, e) := significant (places + 1) n d
    pointed keepPoint (Text.padded (places + 1) digits) ++ exponentText e

/-- A double with the given number of significant digits in the shorter
notation.  Zeros at the end are dropped unless they are to be kept. -/
def general (count : Nat) (keepZeros : Bool) (x : Float) : Text :=
  signed x fun _ =>
    let count := if count = 0 then 1 else count
    let (n, d) := fraction x
    let (digits, e) := significant count n d
    let trim := fun t => if keepZeros then t else withoutZeros t
    if -4 ≤ e && e < count then
      let places := ((count : Int) - 1 - e).toNat
      let t := fixed places (if x < 0 then -x else x.abs)
      trim (if places = 0 && keepZeros then t ++ ['.'] else t)
    else trim (pointed keepZeros (Text.padded count digits)) ++ exponentText e

end DocPress.Decimal
