import DocPress.Text.Basic

/-!
# Decimal numbers

A decimal number is a sign, a run of digits and a power of ten.  Its text is
positional for moderate exponents and scientific outside them.
-/

namespace DocPress

/-- The number `digits * 10 ^ exponent`, negated when `negative` is set. -/
structure Decimal where
  negative : Bool
  digits : Nat
  exponent : Int
deriving DecidableEq, Inhabited

namespace Decimal

/-- Divide trailing zeros out of the digits; at most `fuel` of them. -/
def stripZeros : Nat → Nat → Int → Nat × Int
  | 0, digits, exponent => (digits, exponent)
  | fuel + 1, digits, exponent =>
      if digits != 0 && digits % 10 == 0 then stripZeros fuel (digits / 10) (exponent + 1)
      else (digits, exponent)

/-- The same number with the fewest digits; zero has exponent zero. -/
def reduced (d : Decimal) : Decimal :=
  if d.digits = 0 then { d with exponent := 0 }
  else
    let (digits, exponent) := stripZeros (Text.ofNat d.digits).length d.digits d.exponent
    { d with digits := digits, exponent := exponent }

/-- The exponent in scientific notation: a sign and at least two digits. -/
def exponentText (e : Int) : Text :=
  'e' :: (if e < 0 then '-' else '+') :: Text.padded 2 e.natAbs

/-- Where positional notation ends: the decimal point may stand at most three
zeros before the first digit and at most sixteen places after it. -/
def isPositional (point : Int) : Bool := -4 < point && point ≤ 16

/-- The text of a positive run of digits whose decimal point stands after
`point` of them. -/
def digitsText (digits : Text) (point : Int) : Text :=
  if isPositional point then
    if point ≤ 0 then
      '0' :: '.' :: List.replicate (-point).toNat '0' ++ digits
    else
      let whole := point.toNat
      if digits.length ≤ whole then
        digits ++ List.replicate (whole - digits.length) '0' ++ ['.', '0']
      else digits.take whole ++ '.' :: digits.drop whole
  else
    match digits with
    | [] => []
    | [d] => d :: exponentText (point - 1)
    | d :: more => d :: '.' :: more ++ exponentText (point - 1)

/-- The text of a decimal number: the fewest digits, a fraction of at least
one digit in positional notation. -/
def toText (d : Decimal) : Text :=
  let r := d.reduced
  let sign : Text := if r.negative then ['-'] else []
  if r.digits = 0 then sign ++ ['0', '.', '0']
  else
    let digits := Text.ofNat r.digits
    sign ++ digitsText digits (digits.length + r.exponent)

end Decimal
end DocPress
