import DocPress.Cli.Generate
import DocPress.Config.File
import DocPress.Log.Logger

/-!
# The program

One run of the program on a command line.  Whoever starts it gives it the
libraries it is built on, the disk, the environment, the time, and a name that is
new for every run.
-/

namespace DocPress.Cli

/-- The version of the program. -/
def versionLine : Text := "docsmith 0.1.0".toList

/-! ### The small commands -/

/-- The languages and formats of a press. -/
def formatsValue (p : Press) : Json :=
  .object [("languages".toList, Json.texts p.scanners.identifiers),
    ("formats".toList, Json.texts p.generators.identifiers)]

/-- List the languages and formats. -/
def listFormats (l : Libraries) (json : Bool) : Step Unit := do
  match Press.build (Press.allScanners l.characters)
      (Press.allGenerators l.typesetter ⟨⟨[], []⟩, none⟩ .default) Press.defaultName with
  | .error e => Step.fail e.message
  | .ok p => do
      if json then
        match Json.pretty l.limits (formatsValue p) with
        | .error e => throw (.crashed (.unprintable e))
        | .ok t => Step.say t
      else do
        Step.say "Languages:".toList
        p.scanners.identifiers.forM fun name => Step.say (' ' :: ' ' :: name)
        Step.say "Formats:".toList
        p.generators.identifiers.forM fun name => Step.say (' ' :: ' ' :: name)

/-- The directory of a new configuration. -/
def configDirectory : Path := ⟨[], [".docsmith".toList]⟩

/-- The file of a new configuration. -/
def configFile : Path := configDirectory / ⟨[], ["config.yaml".toList]⟩

/-- Write the configuration that a new project starts with. -/
def writeTemplate : DiskTask DiskError Unit := do
  DiskTask.ensureDirectory configDirectory
  DiskTask.change fun d => d.write configFile.toText (.ofText Settings.template)

/-- Start a configuration, unless there is one that may not be replaced. -/
def startConfig (force : Bool) : Step Unit := do
  let present := match (← Step.disk).look? configFile.toText with
    | .ok (some _) => true
    | _ => false
  if present && !force then do
    Step.report [Journal.error Log.rootName
      ("Config already exists: ".toList ++ configFile.toText)]
    Step.info "Use --force to overwrite".toList
    Step.exit 1
  else do
    match ← Step.onDisk writeTemplate with
    | .error e => Step.fail ("Failed to write config: ".toList ++ e.message)
    | .ok () => do
        Step.say "docsmith configuration initialized".toList
        Step.say ("   Config: ".toList ++ configFile.toText)

/-! ### A run -/

/-- What a run is given besides its command line. -/
structure Surroundings where
  libraries : Libraries
  environment : Environment
  stamp : Stamp
  /-- A name that is new for every run. -/
  runName : Text
  /-- Whether reports go to a terminal. -/
  terminal : Bool

/-- Load the settings, from the file that is named or a usual place. -/
def loadSettings (env : Environment) (named : Option Text) : Step Settings := do
  match Config.load (← Step.disk) env (named.map Path.ofText) true with
  | .ok c => do
      match c.source with
      | some p =>
          Step.report [Journal.debug Log.rootName ("Loaded config from: ".toList ++ p.toText)]
      | none => pure ()
      return c.settings
  | .error (.notFound path) => Step.fail (ConfigFailure.message (.notFound path))
  | .error e => Step.fail ("Failed to load config: ".toList ++ e.message)

/-- Run a command with the arguments it is told. -/
def runCommand (w : Surroundings) (s : Settings) (name : CommandName) (words : List Text) :
    Step Unit :=
  match Command.read name words with
  | .error e => throw (.misused e)
  | .ok none => throw (.helped (some name) 0)
  | .ok (some (.generate o)) => (Job.ofOptions s o).run w.libraries w.runName
  | .ok (some (.formats json)) => listFormats w.libraries json
  | .ok (some (.init force)) => startConfig force

/-- Whether a configuration that is named leads to a file. -/
def isConfigFile (d : Disk) (path : Text) : Bool :=
  match d.look path with
  | .ok (.file _) => true
  | _ => false

/-- Run what a command line asks for.  A command line without words asks for
help in vain. -/
def perform (w : Surroundings) (words : List Text) : Step Unit := do
  if words.isEmpty then throw (.helped none 2)
  match Invocation.read words with
  | .error e => throw (.misused e)
  | .ok .help => throw (.helped none 0)
  | .ok .version => Step.say versionLine
  | .ok (.command o name rest) => do
      match o.config with
      | some path =>
          if !isConfigFile (← Step.disk) path then
            throw (.misused (.noFile configOption.name path))
      | none => pure ()
      runCommand w (← loadSettings w.environment o.config) name rest

/-- The logger that a command line sets up. -/
def loggerOf (terminal : Bool) (words : List Text) : Log.Logger :=
  match Invocation.read words with
  | .ok (.command o _ _) => .ofOptions o.verbose o.quiet o.ci terminal
  | _ => .silent

/-- What comes of a run. -/
structure Outcome where
  ending : Ending
  /-- What is printed. -/
  output : Text
  /-- What is reported, unless a report is nested too deeply to be written. -/
  log : Except Json.PrintError Text
  disk : Disk

/-- Run the program. -/
def run (w : Surroundings) (d : Disk) (words : List Text) : Outcome :=
  let (result, s) := (perform w words).run ⟨d, [], []⟩
  let ending := match result with
    | .ok () => .exited 0
    | .error e => e
  ⟨ending, s.output,
    (loggerOf w.terminal words).writeAll w.libraries.limits w.stamp s.records, s.disk⟩

end DocPress.Cli
