import DocPress.Text.Basic

/-!
# Failures of a scan

A scan refuses a unit that is not well formed and names the line.  A unit that
cannot be read at all has a value at fault and no line.
-/

namespace DocPress

/-- Why a unit has no documentation. -/
inductive ScanFailure where
  | refused (message : Text) (line : Option Nat)
  | badValue (message : Text)
deriving DecidableEq, Inhabited

end DocPress
