import DocPress.Json.Printer
import DocPress.Time.Stamp

/-!
# Log records

A record is one line of a log: a level, the logger it comes from, a message,
and fields for readers that are programs.  It is written either as text or as
one JSON object.
-/

namespace DocPress.Log

/-- How important a record is. -/
abbrev Level := Int

namespace Level

/-- For the search of errors. -/
def debug : Level := 10

/-- What happens. -/
def info : Level := 20

/-- What may be wrong. -/
def warning : Level := 30

/-- What went wrong. -/
def error : Level := 40

/-- What stopped everything. -/
def critical : Level := 50

/-- The name of a level; one without a name of its own goes by its number. -/
def name (n : Level) : Text :=
  if n = critical then "CRITICAL".toList
  else if n = error then "ERROR".toList
  else if n = warning then "WARNING".toList
  else if n = info then "INFO".toList
  else if n = debug then "DEBUG".toList
  else if n = 0 then "NOTSET".toList
  else "Level ".toList ++ Text.ofInt n

/-- The code for the end of a colour. -/
def plainCode : Text := "\x1b[0m".toList

/-- The code for the colour of a level. -/
def colorCode (n : Level) : Text :=
  if n = critical || n = error then "\x1b[31m".toList
  else if n = warning then "\x1b[33m".toList
  else if n = info then "\x1b[32m".toList
  else if n = debug then "\x1b[90m".toList
  else plainCode

end Level

/-- One line of a log. -/
structure Record where
  level : Level
  logger : Text
  message : Text
  /-- Further fields, shown in JSON only. -/
  fields : List (Text × Json)
  /-- The failure that the record is about. -/
  failure : Option Text
deriving Inhabited

namespace Record

/-- A record without further fields. -/
def plain (level : Level) (logger message : Text) : Record := ⟨level, logger, message, [], none⟩

/-- A record as text, with colours and with the time if asked for. -/
def toText (colored timed : Bool) (stamp : Stamp) (r : Record) : Text :=
  let level := '[' :: r.level.name ++ [']']
  let level := if colored then r.level.colorCode ++ level ++ Level.plainCode else level
  let line :=
    if timed then
      level ++ '[' :: stamp.clock ++ ']' :: ' ' :: r.logger ++ ':' :: ' ' :: r.message
    else level ++ ' ' :: r.message
  match r.failure with
  | some t => line ++ '\n' :: t
  | none => line

/-- Fields with one of them set: a known one keeps its place. -/
def setField (key : Text) (value : Json) : List (Text × Json) → List (Text × Json)
  | [] => [(key, value)]
  | (k, v) :: more => if k = key then (k, value) :: more else (k, v) :: setField key value more

/-- All fields of a record whose level goes by a name.  Further fields may replace
those of the record, and the failure comes last. -/
def fieldsAs (levelName : Text) (stamp : Stamp) (r : Record) : List (Text × Json) :=
  let own : List (Text × Json) :=
    [("level".toList, .text levelName), ("ts".toList, .text stamp.full),
      ("logger".toList, .text r.logger), ("msg".toList, .text r.message)]
  let all := r.fields.foldl (fun fs f => setField f.1 f.2 fs) own
  match r.failure with
  | some t => setField "exc".toList (.text t) all
  | none => all

/-- A record whose level goes by a name, as one line of JSON. -/
def lineAs (l : Json.Limits) (levelName : Text) (stamp : Stamp) (r : Record) :
    Except Json.PrintError Text :=
  Json.print l (.object (r.fieldsAs levelName stamp))

/-- A record as one line of JSON. -/
def toJson (l : Json.Limits) (stamp : Stamp) (r : Record) : Except Json.PrintError Text :=
  r.lineAs l r.level.name stamp

end Record
end DocPress.Log
