import DocPress.Decimal.Shortest

/-!
# Fixed places

A double with a fixed number of decimal places, rounded exactly; a half goes
to the even neighbour.
-/

namespace DocPress.Decimal

/-- The quotient rounded to the nearest natural number, a half to the even one. -/
def roundDiv (n d : Nat) : Nat :=
  let q := n / d
  let r := 2 * (n % d)
  if r < d then q else if d < r then q + 1 else if q % 2 == 0 then q else q + 1

/-- A finite double with exactly `places` decimal places. -/
def fixed (places : Nat) (x : Float) : Text :=
  if x.isNaN then ['n', 'a', 'n']
  else if x.isInf then (if x < 0 then ['-', 'i', 'n', 'f'] else ['i', 'n', 'f'])
  else
    let bits := x.toBits.toNat
    let b := Binary.ofBits (bits % Nat.pow 2 63)
    let n := roundDiv (b.mantissa * Nat.pow 2 b.exponent.toNat * Nat.pow 10 places)
      (Nat.pow 2 (-b.exponent).toNat)
    let sign : Text := if Nat.pow 2 63 ≤ bits then ['-'] else []
    let whole := Text.ofNat (n / Nat.pow 10 places)
    if places = 0 then sign ++ whole
    else sign ++ whole ++ '.' :: Text.padded places (n % Nat.pow 10 places)

end DocPress.Decimal
