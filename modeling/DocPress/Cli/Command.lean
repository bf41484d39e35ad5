import DocPress.Cli.Arguments
import DocPress.Storage.Path

/-!
# Commands

A command line is options for every command, the name of a command, and what
the command is told.  The arguments of a command are read on their own, because
the options for every command take effect first.
-/

namespace DocPress.Cli

/-- The commands of the program. -/
inductive CommandName where
  | generate
  | formats
  | init
deriving DecidableEq, Inhabited

namespace CommandName

/-- The word for a command. -/
def toText : CommandName → Text
  | generate => "generate".toList
  | formats => "formats".toList
  | init => "init".toList

/-- All commands. -/
def all : List CommandName := [generate, formats, init]

/-- The command of a word. -/
def ofText? (word : Text) : Option CommandName := all.find? fun c => c.toText == word

end CommandName

/-! ### Options -/

/-- A request for help, which every command knows. -/
def helpOption : OptionForm := ⟨"--help".toList, none, false⟩

/-- A request for the version of the program. -/
def versionOption : OptionForm := ⟨"--version".toList, none, false⟩

/-- The configuration file. -/
def configOption : OptionForm := ⟨"--config".toList, some 'c', true⟩

/-- A request for every record, with its time. -/
def verboseOption : OptionForm := ⟨"--verbose".toList, some 'v', false⟩

/-- A request for warnings and errors only. -/
def quietOption : OptionForm := ⟨"--quiet".toList, some 'q', false⟩

/-- A request for records that programs read. -/
def ciOption : OptionForm := ⟨"--ci".toList, none, false⟩

/-- The format of the documentation. -/
def formatOption : OptionForm := ⟨"--format".toList, some 'f', true⟩

/-- Where the documentation goes. -/
def outputOption : OptionForm := ⟨"--output".toList, some 'o', true⟩

/-- The name of the project. -/
def nameOption : OptionForm := ⟨"--name".toList, none, true⟩

/-- A request for an answer that programs read. -/
def jsonOption : OptionForm := ⟨"--json".toList, none, false⟩

/-- Leave to replace what exists. -/
def forceOption : OptionForm := ⟨"--force".toList, none, false⟩

/-- The options in front of a command. -/
def globalForms : List OptionForm :=
  [configOption, verboseOption, quietOption, ciOption, versionOption, helpOption]

/-- The options after a command. -/
def CommandName.forms : CommandName → List OptionForm
  | generate => [formatOption, outputOption, nameOption, helpOption]
  | formats => [jsonOption, helpOption]
  | init => [forceOption, helpOption]

/-! ### Command lines -/

/-- What holds for every command. -/
structure GlobalOptions where
  config : Option Text
  verbose : Bool
  quiet : Bool
  ci : Bool
deriving DecidableEq, Inhabited

/-- What a command line asks for. -/
inductive Invocation where
  | help
  | version
  | command (options : GlobalOptions) (name : CommandName) (arguments : List Text)
deriving DecidableEq, Inhabited

namespace Invocation

/-- The request for help or the version that comes first. -/
def request? (g : Given) : Option Invocation :=
  g.options.findSome? fun o =>
    if o.1 = helpOption.name then some help
    else if o.1 = versionOption.name then some version
    else none

/-- Read a command line.  A request for help or the version makes the command
needless. -/
def read (words : List Text) : Except UsageError Invocation := do
  let g ← Given.read globalForms false words
  match request? g, g.arguments with
  | some i, _ => .ok i
  | none, [] => .error .missingCommand
  | none, word :: rest =>
      match CommandName.ofText? word with
      | none => .error (.unknownCommand word)
      | some name =>
          .ok (command ⟨g.value? configOption.name, g.has verboseOption.name,
            g.has quietOption.name, g.has ciOption.name⟩ name rest)

end Invocation

/-- What is to be documented, and how; what is missing is taken from the
settings. -/
structure GenerateOptions where
  source : Path
  format : Option Text
  output : Option Text
  name : Option Text
deriving DecidableEq, Inhabited

/-- A command with what it is told. -/
inductive Command where
  | generate (options : GenerateOptions)
  | formats (json : Bool)
  | init (force : Bool)
deriving DecidableEq, Inhabited

namespace Command

/-- The command of some options and arguments. -/
def ofGiven (g : Given) : CommandName → Except UsageError Command
  | .generate =>
      match g.arguments with
      | [] => .error (.missingArgument "SOURCE".toList)
      | [source] =>
          .ok (generate ⟨Path.ofText source, g.value? formatOption.name,
            g.value? outputOption.name, g.value? nameOption.name⟩)
      | _ :: extra :: _ => .error (.extraArgument extra)
  | .formats =>
      match g.arguments with
      | [] => .ok (formats (g.has jsonOption.name))
      | extra :: _ => .error (.extraArgument extra)
  | .init =>
      match g.arguments with
      | [] => .ok (init (g.has forceOption.name))
      | extra :: _ => .error (.extraArgument extra)

/-- Read what a command is told; nothing if help is asked for. -/
def read (name : CommandName) (words : List Text) : Except UsageError (Option Command) := do
  let g ← Given.read name.forms true words
  if g.has helpOption.name then .ok none else do .ok (some (← ofGiven g name))

end Command
end DocPress.Cli
