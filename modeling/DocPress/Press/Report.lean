import DocPress.Model.Description
import DocPress.Press.Registry
import DocPress.Source.Scanner

/-!
# Reports

Every unit has one outcome: a documented file, nothing, or a failure.  A report
collects the outcomes of a batch, each kind in the order of the units.
-/

namespace DocPress

/-- A unit that could not be scanned. -/
structure UnitFailure where
  path : Text
  language : Text
  message : Text
deriving DecidableEq, Inhabited

/-- The outcome of a unit. -/
inductive UnitOutcome where
  | scanned (file : FileDoc)
  /-- No scanner knows the language of the unit. -/
  | unclaimed (path : Text)
  /-- The scanner found nothing to document. -/
  | empty (path : Text)
  | failed (failure : UnitFailure)
deriving DecidableEq, Inhabited

/-- The outcomes of a batch of units. -/
structure Report where
  project : Project
  skipped : List Text
  failures : List UnitFailure
deriving DecidableEq, Inhabited

/-- The words about a failed scan. -/
def ScanFailure.message (path : Text) : ScanFailure → Text
  | refused message line =>
      "Failed to scan ".toList ++ path ++ ": ".toList ++ message
        ++ (match line with
          | some n => " (line ".toList ++ Text.ofNat n ++ [')']
          | none => [])
  | badValue message => message

namespace UnitOutcome

/-- The outcome of a unit, by what its scanner answered. -/
def ofAnswer (u : SourceUnit) : Except ScanFailure (Option FileDoc) → UnitOutcome
  | .ok (some file) => .scanned file
  | .ok none => .empty u.path
  | .error e => .failed ⟨u.path, u.language, e.message u.path⟩

/-- The outcome of a unit under some scanners. -/
def ofUnit (scanners : Registry Scanner) (u : SourceUnit) : UnitOutcome :=
  match scanners.get? (some u.language) with
  | none => .unclaimed u.path
  | some s => ofAnswer u (s.scan u)

/-- The documented file. -/
def file? : UnitOutcome → Option FileDoc
  | scanned f => some f
  | _ => none

/-- The path of a unit without documentation. -/
def skipped? : UnitOutcome → Option Text
  | unclaimed path => some path
  | empty path => some path
  | _ => none

/-- The failure of a unit. -/
def failure? : UnitOutcome → Option UnitFailure
  | failed f => some f
  | _ => none

end UnitOutcome

namespace Report

/-- The report about some outcomes. -/
def ofOutcomes (projectName : Text) (outcomes : List UnitOutcome) : Report :=
  ⟨⟨projectName, outcomes.filterMap UnitOutcome.file?⟩,
    outcomes.filterMap UnitOutcome.skipped?, outcomes.filterMap UnitOutcome.failure?⟩

/-- Whether a unit failed. -/
def hasFailures (r : Report) : Bool := !r.failures.isEmpty

end Report

/-- A failure as a JSON value. -/
def UnitFailure.toJson (f : UnitFailure) : Json :=
  .object [("file_path".toList, .text f.path), ("language".toList, .text f.language),
    ("message".toList, .text f.message)]

/-- The fields of a report as JSON values. -/
def Report.fields (r : Report) : List (Text × Json) :=
  [("project_name".toList, .text r.project.name), ("counts".toList, r.project.counts.toJson),
    ("skipped".toList, Json.texts r.skipped),
    ("failures".toList, .array (r.failures.map UnitFailure.toJson))]

end DocPress
