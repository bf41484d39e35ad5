import DocPress.Text.Basic

/-!
# Ranges of code points

Tables of character classes are written as space-separated hexadecimal ranges
and read once.
-/

namespace DocPress.Text.Ranges

/-- The value of a hexadecimal digit in lower or upper case. -/
def hexDigit? (c : Char) : Option Nat :=
  if '0' ≤ c && c ≤ '9' then some (c.toNat - 48)
  else if 'a' ≤ c && c ≤ 'f' then some (c.toNat - 87)
  else if 'A' ≤ c && c ≤ 'F' then some (c.toNat - 55)
  else none

/-- The number that a run of hexadecimal digits writes. -/
def ofHex (t : Text) : Nat :=
  t.foldl (fun n c => n * 16 + (hexDigit? c).getD 0) 0

/-- One range, written as its two ends or as a single point. -/
def ofWord (w : Text) : Nat × Nat :=
  match splitAt '-' w with
  | [a, b] => (ofHex a, ofHex b)
  | _ => (ofHex w, ofHex w)

/-- The ranges written in the rows of a table. -/
def ofRows (rows : List String) : List (Nat × Nat) :=
  rows.flatMap fun row => (words row.toList).map ofWord

/-- Whether a number lies in one of the ranges. -/
def contains (ranges : List (Nat × Nat)) (n : Nat) : Bool :=
  ranges.any fun r => r.1 ≤ n && n ≤ r.2

end DocPress.Text.Ranges
