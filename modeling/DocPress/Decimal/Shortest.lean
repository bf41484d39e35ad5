import DocPress.Decimal.Basic

/-!
# Shortest decimal of a binary number

A double stands for the interval of reals that round to it.  Its text has the
fewest digits with which some decimal lies in that interval, and among those
the decimal nearest to the double.  All comparisons are exact.
-/

namespace DocPress.Decimal

/-- A finite double `mantissa * 2 ^ exponent`; `boundary` marks the powers of
two, below which the neighbouring double is only half as far. -/
structure Binary where
  mantissa : Nat
  exponent : Int
  boundary : Bool

/-- The parts of the magnitude of a finite double given by its bits. -/
def Binary.ofBits (bits : Nat) : Binary :=
  let field : Nat := bits / Nat.pow 2 52 % Nat.pow 2 11
  let fraction : Nat := bits % Nat.pow 2 52
  if field = 0 then ⟨fraction, -1074, false⟩
  else ⟨Nat.pow 2 52 + fraction, (field : Int) - 1075, fraction = 0 && 1 < field⟩

/-- The numbers `low`, `value` and `high` over one denominator: the double and
the ends of its rounding interval. -/
structure Interval where
  low : Nat
  value : Nat
  high : Nat
  denominator : Nat
  closed : Bool

/-- The rounding interval of a double; its ends belong to it when the mantissa
is even. -/
def Binary.interval (b : Binary) : Interval :=
  let up := b.exponent.toNat
  let down := (-b.exponent).toNat
  let value := 4 * b.mantissa * Nat.pow 2 up
  let half := 2 * Nat.pow 2 up
  { low := value - (if b.boundary then half / 2 else half)
    value := value
    high := value + half
    denominator := 4 * Nat.pow 2 down
    closed := b.mantissa % 2 == 0 }

/-- Whether `n / d` lies in the interval. -/
def Interval.holds (i : Interval) (n d : Nat) : Bool :=
  let x := n * i.denominator
  if i.closed then i.low * d ≤ x && x ≤ i.high * d
  else i.low * d < x && x < i.high * d

/-- The distance from the double to `n / d`, scaled by both denominators. -/
def Interval.distance (i : Interval) (n d : Nat) : Nat :=
  let x := n * i.denominator
  let y := i.value * d
  (x - y) + (y - x)

/-- The decimal on the grid `10 ^ e` that lies in the interval, the nearest of
the two neighbours of the double; a tie goes to the even digit. -/
def Interval.onGrid? (i : Interval) (e : Int) : Option Nat :=
  let up := Nat.pow 10 e.toNat
  let down := Nat.pow 10 (-e).toNat
  let below := i.value * down / (i.denominator * up)
  let holds := fun k => i.holds (k * up) down
  let first := fun (_ : Unit) => if holds below then some below else none
  if holds (below + 1) then
    match first () with
    | none => some (below + 1)
    | some k =>
        let dk := i.distance (k * up) down
        let dn := i.distance ((k + 1) * up) down
        if dk < dn then some k
        else if dn < dk then some (k + 1)
        else some (if k % 2 == 0 then k else k + 1)
  else first ()

/-- The number of decimal digits before the point of `n / d`, for `n` at least
`d`; a lower bound of it otherwise. -/
def magnitude (n d : Nat) : Int :=
  if d ≤ n then (Text.ofNat (n / d)).length
  else 1 - (Text.ofNat (d / n)).length

/-- Try grids of growing fineness, one digit at a time. -/
def Interval.search (i : Interval) : Nat → Int → Nat × Int
  | 0, e => (i.value / i.denominator, e)
  | fuel + 1, e =>
      match i.onGrid? e with
      | some k => if k = 0 then i.search fuel (e - 1) else (k, e)
      | none => i.search fuel (e - 1)

/-- The shortest decimal of a finite double. -/
def ofFinite (x : Float) : Decimal :=
  let bits := x.toBits.toNat
  let negative := Nat.pow 2 63 ≤ bits
  let b := Binary.ofBits (bits % Nat.pow 2 63)
  if b.mantissa = 0 then ⟨negative, 0, 0⟩
  else
    let i := b.interval
    let (k, e) := i.search 20 (magnitude i.value i.denominator)
    ⟨negative, k, e⟩

/-- The text of a double: its shortest decimal, or the name of a value that is
no number. -/
def floatText (x : Float) : Text :=
  if x.isNaN then ['n', 'a', 'n']
  else if x.isInf then
    if x < 0 then ['-', 'i', 'n', 'f'] else ['i', 'n', 'f']
  else (ofFinite x).toText

end DocPress.Decimal
