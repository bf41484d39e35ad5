import DocPress.Cli.Session
import DocPress.Config.Settings

/-!
# The command that generates documentation

Sources are loaded, scanned and made into an artifact, which is then written.
A unit that fails does not stop the command, but shows in its exit code.
-/

namespace DocPress.Cli

/-- What one generation needs to know. -/
structure Job where
  source : Path
  selection : Selection
  /-- The name of the format in lower case. -/
  format : Text
  output : Path
  projectName : Text
  /-- The stylesheet as the configuration gives it. -/
  stylesheet : Value
  pdf : Pdf.Settings

namespace Job

/-- A text unless it is empty. -/
def nonempty? (t : Option Text) : Option Text := t.filter fun t => !t.isEmpty

/-- The job of some options; the settings say what they leave open. -/
def ofOptions (s : Settings) (o : GenerateOptions) : Job where
  source := o.source
  selection := ⟨s.project.included, s.project.excluded⟩
  format := Text.lower ((nonempty? o.format).getD s.output.format)
  output := Path.ofText (o.output.getD s.output.path)
  projectName := (nonempty? o.name).getD s.project.name
  stylesheet := s.stylesheet
  pdf := s.pdf

/-- The path of the stylesheet; an empty value stands for none. -/
def stylesheetPath (j : Job) : Step (Option Path) :=
  if j.stylesheet.isEmpty then return none
  else
    match j.stylesheet with
    | .text t => return some (Path.ofText t)
    | v => throw (.crashed (.stylesheet v))

/-- The units to document. -/
def load (l : Libraries) (j : Job) : Step (List SourceUnit) := do
  let loading := Loading.ofPath l.archives (← Step.disk) j.selection j.source
  Step.report (Journal.ofLoading j.source loading)
  match loading.result with
  | .ok units => return units
  | .error e =>
      match e, e.message? with
      | _, some message => Step.fail ("Cannot read sources: ".toList ++ message)
      | .archive e, none => throw (.crashed (.archive e))
      | .pattern v, none => throw (.crashed (.pattern v))
      | _, none => Step.exit 1

/-- The press for the job. -/
def press (l : Libraries) (j : Job) : Step Press := do
  let generators := Press.allGenerators l.typesetter ⟨j.output, ← j.stylesheetPath⟩ j.pdf
  match Press.build (Press.allScanners l.characters) generators j.projectName with
  | .error e => Step.fail e.message
  | .ok p => do
      Step.report (Journal.ofPress p)
      return p

/-- Scan units and make the artifact of the project. -/
def make (j : Job) (runName : Text) (p : Press) (units : List SourceUnit) :
    Step (Artifact × Report) := do
  match p.generators.require (some j.format) with
  | .error e => Step.fail e.message
  | .ok g => do
      let outcomes := p.outcomes units
      let report := Report.ofOutcomes p.projectName outcomes
      Step.report (Journal.ofScan p units outcomes)
      let result ← Step.onDisk (g.run runName report.project)
      Step.report (Journal.ofRun g runName report.project result)
      match result with
      | .error e => Step.fail (e.report g.format).fullMessage
      | .ok a => return (a, report)

/-- The file of an artifact that is a single file: the output itself, or a file
of a fixed name in it if it is a directory or has no suffix. -/
def outputFile (j : Job) (d : Disk) : Except DiskError Path := do
  if (← d.isDirectory j.output.toText) || j.output.suffix.isEmpty then
    .ok (j.output / ⟨[], ["documentation.".toList ++ j.format]⟩)
  else .ok j.output

/-- Write an artifact, unless its generator did, and tell where it is. -/
def write (j : Job) (runName : Text) (a : Artifact) : DiskTask DiskError Path := do
  match a with
  | .documents _ root entry _ => return Path.ofText root / Path.ofText entry
  | .text _ _ content => do
      let p ← ExceptT.mk (do return j.outputFile (← get))
      DiskTask.writeBelow p (.ofText content)
      return p
  | .printed _ _ document => do
      let p ← ExceptT.mk (do return j.outputFile (← get))
      DiskTask.writeBelow p (.printed runName document)
      return p

/-- The record about a job that is done. -/
def summary (j : Job) (written : Path) (r : Report) : Log.Record where
  level := .info
  logger := Log.rootName
  message := "Generation finished".toList
  fields := [("format".toList, .text j.format), ("output".toList, .text written.toText)] ++ r.fields
  failure := none

/-- The record about a unit that failed, at the end of the job. -/
def reminder (f : UnitFailure) : Log.Record :=
  Journal.warning Log.rootName
    ("  [".toList ++ f.language ++ "] ".toList ++ f.path ++ ": ".toList ++ f.message)

/-- Do the job. -/
def run (l : Libraries) (j : Job) (runName : Text) : Step Unit := do
  Step.info ("Output: ".toList ++ j.output.toText ++ " (format: ".toList ++ j.format ++ [')'])
  let units ← j.load l
  let (artifact, report) ← j.make runName (← j.press l) units
  match ← Step.onDisk (j.write runName artifact) with
  | .error e => Step.fail ("Failed to write documentation: ".toList ++ e.message)
  | .ok written => do
      Step.report [j.summary written report]
      Step.say ("Documentation written to: ".toList ++ written.toText)
      if report.hasFailures then do
        Step.report (report.failures.map reminder)
        Step.exit 2

end Job
end DocPress.Cli
