import DocPress.Log.Record

/-!
# Loggers

All loggers of this library are parts of one: they share its least level and
its stream.  A logger that is not set up writes nothing.
-/

namespace DocPress.Log

/-- How records are written. -/
inductive Mode where
  | human
  | verbose
  | json
deriving DecidableEq, Inhabited

/-- The mode of a name. -/
def Mode.ofName? (name : Text) : Option Mode :=
  if name = "human".toList then some .human
  else if name = "verbose".toList then some .verbose
  else if name = "json".toList then some .json
  else none

/-- A stream that records are written to. -/
structure Stream where
  mode : Mode
  colored : Bool
deriving DecidableEq, Inhabited

/-- The logger of this library. -/
structure Logger where
  level : Level
  stream : Option Stream
deriving DecidableEq, Inhabited

/-- The name of the logger of this library. -/
def rootName : Text := "docsmith".toList

namespace Logger

/-- A logger before it is set up. -/
def silent : Logger := ⟨60, none⟩

/-- The least level without a level of its own. -/
def inheritedLevel : Level := Level.warning

/-- The least level of records that are written. -/
def leastLevel (l : Logger) : Level := if l.level = 0 then inheritedLevel else l.level

/-- Whether records of a level are written. -/
def accepts (l : Logger) (n : Level) : Bool := 0 < n && l.leastLevel ≤ n

/-- Whether a logger is a part of this one. -/
def owns (name : Text) : Bool :=
  name = rootName || (rootName ++ ['.']).isPrefixOf name

/-- Set up the logger for a new stream, which may be a terminal. -/
def setUp (mode : Mode) (level : Level) (terminal : Bool) : Logger := ⟨level, some ⟨mode, terminal⟩⟩

/-- Set up the logger by the options of a command, for a stream that may be a
terminal.  Quiet wins over verbose for the level, JSON over verbose for the
mode. -/
def ofOptions (verbose quiet json terminal : Bool) : Logger :=
  let mode := if json then Mode.json else if verbose then .verbose else .human
  let level := if quiet then Level.warning else if verbose then Level.debug else Level.info
  setUp mode level terminal

variable (limits : Json.Limits)

/-- The line of a record on a stream. -/
def lineOf (s : Stream) (stamp : Stamp) (r : Record) : Except Json.PrintError Text :=
  match s.mode with
  | .json => r.toJson limits stamp
  | .verbose => .ok (r.toText s.colored true stamp)
  | .human => .ok (r.toText s.colored false stamp)

/-- What a record adds to the output.  One whose line cannot be written adds nothing, but
nesting without end stops the program that reports it. -/
def write (l : Logger) (stamp : Stamp) (r : Record) : Except Json.PrintError Text :=
  match l.stream with
  | none => .ok []
  | some s =>
      if owns r.logger && l.accepts r.level then
        match lineOf limits s stamp r with
        | .ok line => .ok (line ++ ['\n'])
        | .error .tooLong => .ok []
        | .error .tooDeep => .error .tooDeep
      else .ok []

/-- What records add to the output. -/
def writeAll (l : Logger) (stamp : Stamp) (rs : List Record) : Except Json.PrintError Text :=
  (rs.mapM (l.write limits stamp)).map List.flatten

end Logger
end DocPress.Log
