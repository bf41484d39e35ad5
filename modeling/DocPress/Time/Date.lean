import DocPress.Text.Basic

/-!
# Dates

Days of the calendar and moments of a day, with the texts that settings show
them by.
-/

namespace DocPress

/-- A day of the calendar. -/
structure Date where
  year : Nat
  month : Nat
  day : Nat
deriving DecidableEq, Inhabited

/-- A time of day, with its distance from universal time in minutes if known. -/
structure Clock where
  hour : Nat
  minute : Nat
  second : Nat
  micro : Nat
  zone : Option Int
deriving DecidableEq, Inhabited

namespace Date

/-- Whether a year has a leap day. -/
def isLeap (year : Nat) : Bool := (year % 4 == 0 && year % 100 != 0) || year % 400 == 0

/-- The number of days of a month. -/
def daysIn (year month : Nat) : Nat :=
  if month = 2 then (if isLeap year then 29 else 28)
  else if month = 4 || month = 6 || month = 9 || month = 11 then 30
  else 31

/-- What is wrong with a date, if anything. -/
def fault? (d : Date) : Option Text :=
  if d.year = 0 then some "year 0 is out of range".toList
  else if d.month = 0 || 12 < d.month then some "month must be in 1..12".toList
  else if d.day = 0 || daysIn d.year d.month < d.day then
    some "day is out of range for month".toList
  else none

/-- A date by year, month and day. -/
def toText (d : Date) : Text :=
  Text.padded 4 d.year ++ '-' :: Text.padded 2 d.month ++ '-' :: Text.padded 2 d.day

/-- The parts of a date in a list. -/
def fields (d : Date) : List Nat := [d.year, d.month, d.day]

/-- Year, month and day of a number of days after the first of January 1970. -/
def civil (days : Int) : Int × Nat × Nat :=
  let z := days + 719468
  let era := z / 146097
  let dayOfEra := (z - era * 146097).toNat
  let yearOfEra :=
    (dayOfEra - dayOfEra / 1460 + dayOfEra / 36524 - dayOfEra / 146096) / 365
  let dayOfYear := dayOfEra - (365 * yearOfEra + yearOfEra / 4 - yearOfEra / 100)
  let shifted := (5 * dayOfYear + 2) / 153
  let day := dayOfYear - (153 * shifted + 2) / 5 + 1
  let month := if shifted < 10 then shifted + 3 else shifted - 9
  ((yearOfEra : Int) + era * 400 + (if month ≤ 2 then 1 else 0), month, day)

end Date

namespace Clock

/-- What is wrong with a time, if anything. -/
def fault? (c : Clock) : Option Text :=
  if 23 < c.hour then some "hour must be in 0..23".toList
  else if 59 < c.minute then some "minute must be in 0..59".toList
  else if 59 < c.second then some "second must be in 0..59".toList
  else none

/-- A distance from universal time. -/
def zoneText (minutes : Int) : Text :=
  (if minutes < 0 then '-' else '+') :: Text.padded 2 (minutes.natAbs / 60)
    ++ ':' :: Text.padded 2 (minutes.natAbs % 60)

/-- A time by hours, minutes and seconds, with a fraction only if there is one. -/
def toText (c : Clock) : Text :=
  Text.padded 2 c.hour ++ ':' :: Text.padded 2 c.minute ++ ':' :: Text.padded 2 c.second
    ++ (if c.micro = 0 then [] else '.' :: Text.padded 6 c.micro)
    ++ (match c.zone with
      | none => []
      | some minutes => zoneText minutes)

/-- The parts of a time in a list; zeros at the end of it are left out. -/
def fields (c : Clock) : List Nat :=
  if c.micro != 0 then [c.hour, c.minute, c.second, c.micro]
  else if c.second != 0 then [c.hour, c.minute, c.second]
  else [c.hour, c.minute]

/-- A distance in minutes as it is shown inside collections: days, which may be
negative, and seconds after them. -/
def shownDistance (minutes : Int) : Text :=
  let seconds := minutes * 60
  let days := seconds / 86400
  let rest := seconds - days * 86400
  let parts := (if days = 0 then [] else ["days=".toList ++ Text.ofInt days])
    ++ (if rest = 0 then [] else ["seconds=".toList ++ Text.ofInt rest])
  "datetime.timedelta(".toList ++ Text.join [',', ' '] parts ++ [')']

/-- A distance from universal time as it is shown inside collections. -/
def shownZone (minutes : Int) : Text :=
  if minutes = 0 then "datetime.timezone.utc".toList
  else "datetime.timezone(".toList ++ shownDistance minutes ++ [')']

/-- What is wrong with a distance from universal time, if anything. -/
def zoneFault? (minutes : Int) : Option Text :=
  if minutes.natAbs < 1440 then none
  else
    some ("offset must be a timedelta strictly between -timedelta(hours=24) and ".toList
      ++ "timedelta(hours=24), not ".toList ++ shownDistance minutes ++ ['.'])

end Clock
end DocPress
