import DocPress.Decimal.Nearest
import DocPress.Time.Date

/-!
# Time stamps

The two texts of a moment that records show: the clock of the day, and the full
date and time in universal time.
-/

namespace DocPress

/-- The texts of a moment. -/
structure Stamp where
  clock : Text
  full : Text
deriving DecidableEq, Inhabited

/-- Why a number of seconds is no moment. -/
inductive StampError where
  | yearOutOfRange (year : Int)
  /-- The year is beyond all that can be counted. -/
  | noYear
  | notNumber
  | tooLarge
deriving DecidableEq, Inhabited

/-- The words about a number of seconds that is no moment. -/
def StampError.message : StampError → Text
  | yearOutOfRange year => "year ".toList ++ Text.ofInt year ++ " is out of range".toList
  | noYear => "[Errno 75] Value too large for defined data type".toList
  | notNumber => "cannot convert float NaN to integer".toList
  | tooLarge => "timestamp out of range for platform time_t".toList

namespace Stamp

/-- Microseconds of a day. -/
def dayLength : Int := 86400000000

/-- The greatest number of years after 1900 that can be counted. -/
def mostYears : Int := 2147483647

/-- Why a year has no stamps, if it has none. -/
def yearFault? (year : Int) : Option StampError :=
  if year - 1900 < -mostYears - 1 || mostYears < year - 1900 then some .noYear
  else if year < 1 || 9999 < year then some (.yearOutOfRange year)
  else none

/-- The stamp of a number of microseconds after the first of January 1970.  The
clock looks back by one day, so the day before must have stamps too. -/
def ofMicros (micros : Int) : Except StampError Stamp :=
  let days := micros / dayLength
  let rest := (micros - days * dayLength).toNat
  let (year, month, day) := Date.civil days
  match (yearFault? year).or (yearFault? (Date.civil (days - 1)).1) with
  | some e => .error e
  | none =>
    let seconds := rest / 1000000
    let c : Clock := ⟨seconds / 3600, seconds / 60 % 60, seconds % 60, rest % 1000000, some 0⟩
    .ok ⟨{ c with micro := 0, zone := none : Clock }.toText,
      (⟨year.toNat, month, day⟩ : Date).toText ++ 'T' :: c.toText⟩

/-- A number rounded to a whole one, a half to the even neighbour. -/
def roundEven (x : Float) : Float :=
  let r := x.round
  if (x - r).abs == 0.5 then 2.0 * (x / 2.0).round else r

/-- The whole part of a number, toward zero. -/
def wholePart (x : Float) : Float := if x < 0 then x.ceil else x.floor

/-- The greatest number of seconds that can be counted. -/
def mostSeconds : Float := 9223372036854775808.0

/-- The whole number that a double without fraction stands for. -/
def intOf (x : Float) : Int := if x < 0 then -(x.abs.toUInt64.toNat : Int) else x.toUInt64.toNat

/-- The stamp of a number of seconds after the first of January 1970. -/
def ofSeconds (x : Float) : Except StampError Stamp :=
  if x.isNaN then .error .notNumber
  else if mostSeconds <= x.abs then .error .tooLarge
  else
    let whole := wholePart x
    let micros := roundEven ((x - whole) * 1e6)
    ofMicros (intOf whole * 1000000 + intOf micros)

end Stamp
end DocPress
