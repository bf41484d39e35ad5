import DocPress.Cli.Help
import DocPress.Cli.Run

/-!
# The program on a real disk

The parts of the disk that a command line can reach are read first, the run is
made on them, and what it changed is written back.
-/

namespace DocPress.Cli

/-- Put what is at a path on a disk, unless it is known. -/
def observe (d : Disk) (path : Text) : IO Disk := do
  match d.locate path with
  | .error _ => return d
  | .ok place =>
      if (d.entry? place).isSome then return d
      let p := (← IO.currentDir) / String.ofList path
      if ← p.isDir then return d.put place .directory
      else if ← p.pathExists then
        return d.put place (.file (.bytes (← IO.FS.readBinFile p).toList))
      else return d

/-- Put what is at a path, and at all paths that lead to it, on a disk. -/
def observeAlong (d : Disk) (p : Path) : IO Disk :=
  (Disk.above p.parts).foldlM (fun d parts => observe d (Path.toText ⟨p.root, parts⟩)) d

/-- Put everything below a path on a disk; a link is not followed. -/
partial def observeBelow (d : Disk) (path : Text) : IO Disk := do
  let p := (← IO.currentDir) / String.ofList path
  let d ← observe d path
  if !(← p.isDir) then return d
  (← p.readDir).foldlM (fun d e => do
    let inner := path ++ '/' :: e.fileName.toList
    match (← e.path.symlinkMetadata).type with
    | .symlink => observe d inner
    | _ => observeBelow d inner) d

/-- The variables that the configuration files on a disk refer to. -/
def environmentFor (d : Disk) : IO Environment := do
  let pieces := d.entries.flatMap fun e =>
    match e.2 with
    | .file content => Environment.pieces (Utf8.decodeReplacing content.toBytes)
    | .directory => []
  pieces.foldlM (fun env piece => do
    match piece with
    | .copied _ => return env
    | .reference name =>
        match ← IO.getEnv (String.ofList name) with
        | some value => return env ++ [(name, value.toList)]
        | none => return env) []

/-- The configuration files that a command line can reach. -/
def observeConfig (d : Disk) (named : Option Text) : IO Disk := do
  let d ← Config.usualPlaces.foldlM observeAlong d
  match named with
  | some path => observeAlong d (Path.ofText path)
  | none => return d

/-- The sources and the output of a job. -/
def observeJob (d : Disk) (j : Job) : IO Disk := do
  let d ← observeAlong d j.source
  let d ← observeBelow d j.source.toText
  let d ← observeAlong d (j.output / Path.ofText ("documentation.".toList ++ j.format))
  match j.stylesheet with
  | .text t => observeAlong d (Path.ofText t)
  | _ => return d

/-- The disk and the environment that a command line can reach. -/
def observeAll (words : List Text) : IO (Disk × Environment) := do
  let here := (Path.ofText (← IO.currentDir).toString.toList).parts
  let d := Disk.empty here
  match Invocation.read words with
  | .ok (.command o name rest) => do
      let d ← observeConfig d o.config
      let env ← environmentFor d
      match Config.load d env (o.config.map Path.ofText) true, Command.read name rest with
      | .ok c, .ok (some (.generate g)) => return (← observeJob d (.ofOptions c.settings g), env)
      | _, _ => return (d, env)
  | _ => return (d, [])

/-- Whether an entry of a disk is what another disk has at its place. -/
def isUnchanged (old : Disk) (place : Place) (entry : DiskEntry) : Bool :=
  match old.entry? place, entry with
  | some .directory, .directory => true
  | some (.file (.bytes a)), .file (.bytes b) => a == b
  | _, _ => false

/-- Write what a run changed. -/
def writeBack (old new : Disk) : IO Unit :=
  new.entries.forM fun e => do
    if isUnchanged old e.1 e.2 then return ()
    let path := String.ofList (Path.toText ⟨['/'], e.1⟩)
    match e.2 with
    | .directory => IO.FS.createDirAll path
    | .file content => IO.FS.writeBinFile path ⟨content.toBytes.toArray⟩

/-- The stamp of now, by the time of a file that is made now. -/
def stampOfNow : IO Stamp :=
  IO.FS.withTempFile fun _ path => do
    let now := (← path.metadata).modified
    match Stamp.ofMicros (now.sec * 1000000 + now.nsec.toNat / 1000) with
    | .ok stamp => return stamp
    | .error _ => return ⟨[], []⟩

/-- A name of random digits. -/
def freshRunName : IO Text := do
  return (← IO.getRandomBytes 16).toList.flatMap fun b => Text.hex 2 b.toNat

/-- Run the program, built on some libraries, on the words of its command line. -/
def runOnDisk (l : Libraries) (args : List String) : IO UInt32 := do
  let words := args.map String.toList
  let (disk, env) ← observeAll words
  let out ← IO.getStdout
  let err ← IO.getStderr
  let o := run ⟨l, env, ← stampOfNow, ← freshRunName, ← err.isTty⟩ disk words
  writeBack disk o.disk
  out.putStr (String.ofList (o.output ++ o.ending.output))
  match o.log with
  | .ok log =>
      err.putStr (String.ofList (log ++ o.ending.reports))
      return o.ending.exitCode.toUInt32
  | .error e =>
      err.putStr (String.ofList (Ending.crashed (.unprintable e)).reports)
      return 1

end DocPress.Cli
