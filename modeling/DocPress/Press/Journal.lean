import DocPress.Log.Logger
import DocPress.Press.Basic
import DocPress.Source.Load

/-!
# The journal of a press

What is reported while sources are loaded, scanned and made into an artifact.
The journal is read off the results of each stage, in the order in which the
stage came to them, so it can say nothing that did not happen.
-/

namespace DocPress.Journal

open Log (Record)

/-- The logger of a part of this library. -/
def part (name : String) : Text := Log.rootName ++ '.' :: name.toList

/-- The logger of the loader. -/
def loader : Text := part "sources"

/-- The logger of scanners. -/
def scanner : Text := part "scanners.base"

/-- The logger of the press. -/
def press : Text := part "orchestrator"

/-- The logger of the generator of a format. -/
def generator (format : Text) : Text := part "generators." ++ format

/-- A record for the search of errors. -/
def debug (logger message : Text) : Record := .plain .debug logger message

/-- A record about what happens. -/
def info (logger message : Text) : Record := .plain .info logger message

/-- A record about what may be wrong. -/
def warning (logger message : Text) : Record := .plain .warning logger message

/-- A record about what went wrong. -/
def error (logger message : Text) : Record := .plain .error logger message

/-! ### Loading and scanning -/

/-- The records of a loading: the binary files passed over, and the number of
units unless something stopped the reading. -/
def ofLoading (p : Path) (l : Loading) : List Record :=
  l.binaries.map (fun path => debug loader ("Skipping binary file: ".toList ++ path))
    ++ match l.stopped with
      | some _ => []
      | none =>
          [info loader ("Loaded ".toList ++ Text.ofNat l.units.length
            ++ " source file(s) from ".toList ++ p.toText)]

/-- The records of a press that is set up. -/
def ofPress (p : Press) : List Record :=
  [debug press ("Registered scanners: ".toList ++ Text.quotedList p.scanners.identifiers),
    debug press ("Registered generators: ".toList ++ Text.quotedList p.generators.identifiers)]

/-- The words about a unit, in front of the scanner that had it. -/
def byScanner (scanners : Registry Scanner) (u : SourceUnit) (words : Text) : Record :=
  let language := ((scanners.get? (some u.language)).map Scanner.language).getD []
  debug scanner (language ++ " scanner: ".toList ++ u.path ++ words)

/-- The records of the outcome of a unit. -/
def ofOutcome (scanners : Registry Scanner) (u : SourceUnit) : UnitOutcome → List Record
  | .scanned f =>
      [byScanner scanners u (" -> ".toList ++ Text.ofNat f.classes.length ++ " class(es)".toList)]
  | .unclaimed path =>
      [info press ("No scanner for language ".toList ++ u.language ++ ", skipping ".toList ++ path)]
  | .empty path =>
      [byScanner scanners u
          (if u.isBlank then " is empty, skipping".toList
            else " is marked as ".toList ++ u.language ++ ", skipping".toList),
        debug press ("No model produced for ".toList ++ path)]
  | .failed f => [warning press ("Failed to scan ".toList ++ f.path ++ ": ".toList ++ f.message)]

/-- The records of a scan of units. -/
def ofScan (p : Press) (units : List SourceUnit) (outcomes : List UnitOutcome) : List Record :=
  let counts := (Report.ofOutcomes p.projectName outcomes).project.counts
  info press ("Scanning ".toList ++ Text.ofNat units.length ++ " source unit(s)".toList)
    :: (units.zip outcomes).flatMap (fun e => ofOutcome p.scanners e.1 e.2)
    ++ [info press ("Built documentation model: ".toList ++ Text.ofNat counts.files
      ++ " file(s), ".toList ++ Text.ofNat counts.classes ++ " class(es), ".toList
      ++ Text.ofNat counts.methods ++ " method(s)".toList)]

/-! ### Generating -/

/-- The records of the pages of files, once they are made. -/
def ofPages (p : Project) : List Record :=
  ((Html.pageNames p.files).filterMap id).map fun name =>
    debug (generator Html.format) ("Rendered file page ".toList ++ name)

/-- The records of a generator that made its artifact. -/
def ofArtifact (runName : Text) (p : Project) : Artifact → List Record
  | .text format _ content =>
      [info (generator format) ("Rendered XML documentation (".toList
        ++ Text.ofNat content.length ++ " characters)".toList)]
  | .documents format root _ files =>
      ofPages p ++ [info (generator format) ("Wrote ".toList ++ Text.ofNat files.length
        ++ " HTML file(s) to ".toList ++ root)]
  | .printed format _ document =>
      [info (generator format) ("Rendered PDF documentation (".toList
        ++ Text.ofNat document.pages.length ++ " page(s), ".toList
        ++ Text.ofNat (document.bytes runName).length ++ " bytes)".toList)]

/-- The records of a generator that gave up. -/
def ofError (p : Project) (e : GenerationError) : List Record :=
  match e.cause with
  | .template _ => [error (generator e.format) e.message]
  | .layout _ => [error (generator e.format) e.message]
  | .notWritten root fault =>
      ofPages p ++ [error (generator e.format) ("Failed to write HTML documentation to ".toList
        ++ root.toText ++ ": ".toList ++ fault.message)]
  | .other _ => []

/-- The records of a run of a generator. -/
def ofRun (g : Generator) (runName : Text) (p : Project)
    (result : Except GeneratorFailure Artifact) : List Record :=
  info press ("Generating ".toList ++ g.format ++ " documentation".toList)
    :: match result with
      | .ok a =>
          ofArtifact runName p a
            ++ [info press ("Generation complete for format: ".toList ++ g.format)]
      | .error (.generation e) => ofError p e
      | .error (.other message) =>
          (if g.format = Html.format then ofPages p else [])
            ++ [error press ("Generator ".toList ++ g.format ++ " failed: ".toList ++ message)]

end DocPress.Journal
