import DocPress.Decimal.Shortest

/-!
# Nearest double of a decimal

Decimals are rounded to the nearest double.  Exponents far outside the range
of doubles are cut off first, since the result no longer depends on them.
-/

namespace DocPress.Decimal

/-- The double nearest to a decimal; too large a number gives infinity. -/
def toFloat (d : Decimal) : Float :=
  let length : Int := (Text.ofNat d.digits).length
  let magnitude :=
    if d.digits = 0 then 0.0
    else if 400 < length + d.exponent then 1.0 / 0.0
    else if length + d.exponent < -400 then 0.0
    else if d.exponent < 0 then Float.ofScientific d.digits true d.exponent.natAbs
    else Float.ofScientific d.digits false d.exponent.natAbs
  if d.negative then -magnitude else magnitude

/-- The double nearest to an integer, unless it is out of range. -/
def floatOfInt? (n : Int) : Option Float :=
  let x := toFloat ⟨n < 0, n.natAbs, 0⟩
  if x.isInf then none else some x

/-- The decimal that a double nearest to the given one prints as. -/
def throughDouble (d : Decimal) : Decimal := ofFinite d.toFloat

end DocPress.Decimal
