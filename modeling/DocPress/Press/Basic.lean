import DocPress.Html.Generate
import DocPress.Pdf.Generate
import DocPress.Press.Report
import DocPress.Xml.Generate

/-!
# The press

A press turns source units into an artifact: it looks up the generator of the
format, scans every unit, and runs the generator on the project.  A format
without a generator is found before anything is scanned, and a unit that fails
never stops the others.
-/

namespace DocPress

/-- Scanners and generators, and the name of the projects they make. -/
structure Press where
  scanners : Registry Scanner
  generators : Registry Generator
  projectName : Text

/-- A scanner that is asked about a unit. -/
abbrev ScannerCall := Scanner × SourceUnit

/-- What the requests to a press leave behind: the disk, and the scanner calls in their
order. -/
structure PressState where
  disk : Disk
  calls : List ScannerCall

/-- A task of a press, which may stop halfway. -/
abbrev PressTask (ε α : Type) := ExceptT ε (StateM PressState) α

namespace PressTask

variable {ε α : Type}

/-- Ask a scanner about a unit. -/
def ask (s : Scanner) (u : SourceUnit) : PressTask ε (Except ScanFailure (Option FileDoc)) := do
  modify fun state => { state with calls := state.calls ++ [(s, u)] }
  return s.scan u

/-- Work on the disk. -/
def onDisk (task : DiskTask ε α) : PressTask ε α := do
  let state ← get
  let (result, d) := task.run state.disk
  set { state with disk := d }
  ExceptT.mk (pure result)

end PressTask

/-- Why a press makes no artifact. -/
inductive PressError where
  | configuration (e : RegistryError)
  | generation (e : GenerationError)
deriving DecidableEq, Inhabited

namespace Press

/-- Scanners are found by language. -/
def scannerView : HandlerView Scanner := ⟨Scanner.language, Scanner.title⟩

/-- Generators are found by format. -/
def generatorView : HandlerView Generator := ⟨Generator.format, Generator.title⟩

/-- A press with the given scanners and generators. -/
def build (scanners : List Scanner) (generators : List Generator) (projectName : Text) :
    Except RegistryError Press := do
  let scanners ← Registry.build scannerView "scanner".toList scanners
  let generators ← Registry.build generatorView "generator".toList generators
  .ok ⟨scanners, generators, projectName⟩

/-- All scanners of this library. -/
def allScanners (data : Docstring.CharacterData) : List Scanner := [.java, .python data]

/-- All generators of this library. -/
def allGenerators (t : Pdf.Typesetter) (html : Html.Settings) (pdf : Pdf.Settings) :
    List Generator :=
  [Xml.generator, Html.generator html, Pdf.generator t pdf]

/-- The name of a project that has none. -/
def defaultName : Text := "Generated Documentation".toList

/-- The outcomes of units. -/
def outcomes (p : Press) (units : List SourceUnit) : List UnitOutcome :=
  units.map (UnitOutcome.ofUnit p.scanners)

/-- Scan units without making anything of them. -/
def scan (p : Press) (units : List SourceUnit) : Report :=
  Report.ofOutcomes p.projectName (p.outcomes units)

/-- Run a generator; a failure that is not its own report is wrapped. -/
def render (g : Generator) (runName : Text) (project : Project) :
    DiskTask GenerationError Artifact :=
  ExceptT.adapt (GeneratorFailure.report g.format) (g.run runName project)

/-- Ask the scanner for the language of a unit, if there is one. -/
def examine (p : Press) (u : SourceUnit) : PressTask PressError UnitOutcome := do
  match p.scanners.get? (some u.language) with
  | none => return .unclaimed u.path
  | some s => return .ofAnswer u (← PressTask.ask s u)

/-- Make an artifact of units, with the report about them. -/
def generate (p : Press) (runName : Text) (units : List SourceUnit) (format : Option Text) :
    PressTask PressError (Artifact × Report) := do
  let g ← ExceptT.adapt .configuration (ExceptT.mk (pure (p.generators.require format)))
  let outcomes ← units.mapM p.examine
  let report := Report.ofOutcomes p.projectName outcomes
  let artifact ← PressTask.onDisk (ExceptT.adapt .generation (render g runName report.project))
  return (artifact, report)

end Press
end DocPress
