import DocPress.Cli.Command
import DocPress.Press.Journal

/-!
# Sessions

A session is one run of the program: the disk it works on, what it prints, and
what it reports.  A step of a session may end it.
-/

namespace DocPress.Cli

/-- The libraries that the program is built on. -/
structure Libraries where
  archives : Archive.Library
  characters : Docstring.CharacterData
  typesetter : Pdf.Typesetter
  limits : Json.Limits

/-- What stops the program without a report. -/
inductive Crash where
  /-- An archive is damaged. -/
  | archive (e : Archive.ArchiveError)
  /-- A pattern of the configuration is no text. -/
  | pattern (v : Value)
  /-- The stylesheet of the configuration is no path. -/
  | stylesheet (v : Value)
  /-- A value cannot be printed. -/
  | unprintable (e : Json.PrintError)
deriving Inhabited

/-- How a session ends. -/
inductive Ending where
  | exited (code : Nat)
  /-- Help about a command, or about the program. -/
  | helped (about : Option CommandName) (code : Nat)
  | misused (e : UsageError)
  | crashed (c : Crash)
deriving Inhabited

/-- The exit code of an ending. -/
def Ending.exitCode : Ending → Nat
  | exited code => code
  | helped _ code => code
  | misused _ => 2
  | crashed _ => 1

/-- The state of a session. -/
structure Session where
  disk : Disk
  output : Text
  records : List Log.Record

/-- A step of a session. -/
abbrev Step (α : Type) := ExceptT Ending (StateM Session) α

namespace Step

/-- Report records. -/
def report (rs : List Log.Record) : Step Unit :=
  modify fun s => { s with records := s.records ++ rs }

/-- Report that something happened. -/
def info (message : Text) : Step Unit := report [Journal.info Log.rootName message]

/-- Print a line. -/
def say (line : Text) : Step Unit :=
  modify fun s => { s with output := s.output ++ line ++ ['\n'] }

/-- End the session. -/
def exit {α : Type} (code : Nat) : Step α := throw (.exited code)

/-- End the session with the report of an error. -/
def fail {α : Type} (message : Text) : Step α := do
  report [Journal.error Log.rootName message]
  exit 1

/-- The disk as it is. -/
def disk : Step Disk := do return (← get).disk

/-- Work on the disk. -/
def onDisk {ε α : Type} (task : DiskTask ε α) : Step (Except ε α) := do
  let s ← get
  let (result, d) := task.run s.disk
  set { s with disk := d }
  return result

end Step
end DocPress.Cli
