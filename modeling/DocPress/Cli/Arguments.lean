import DocPress.Text.Quoted

/-!
# Arguments

The words of a command line are options and arguments.  A long option is named
after two dashes and may have its value after an equals sign; letters after one
dash are options in a row, of which the last may take what is left as its value.
An option without its value takes the next word, whatever it looks like.
-/

namespace DocPress.Cli

/-- An option of a command. -/
structure OptionForm where
  /-- Its name, with both dashes. -/
  name : Text
  /-- The letter that stands for it after one dash. -/
  letter : Option Char
  takesValue : Bool
deriving DecidableEq, Inhabited

/-- Why a command line is refused. -/
inductive UsageError where
  | unknownOption (name : Text)
  | missingValue (name : Text)
  /-- An option that takes no value has one. -/
  | needlessValue (name : Text)
  | missingCommand
  | unknownCommand (name : Text)
  | missingArgument (name : Text)
  | extraArgument (argument : Text)
  /-- The value of an option names no file. -/
  | noFile (name path : Text)
deriving DecidableEq, Inhabited

/-- The words about a command line that is refused. -/
def UsageError.message : UsageError → Text
  | unknownOption name => "No such option: ".toList ++ name
  | missingValue name => "Option ".toList ++ Text.quoted name ++ " requires an argument.".toList
  | needlessValue name => "Option ".toList ++ Text.quoted name ++ " does not take a value.".toList
  | missingCommand => "Missing command.".toList
  | unknownCommand name => "No such command ".toList ++ Text.quoted name ++ ['.']
  | missingArgument name => "Missing argument ".toList ++ Text.quoted name ++ ['.']
  | extraArgument argument => "Got unexpected extra argument (".toList ++ argument ++ [')']
  | noFile name path =>
      "Invalid value for ".toList ++ Text.quoted name ++ ": no file at ".toList
        ++ Text.quoted path ++ ['.']

/-- The options of a command line with their values, which are empty for those
that take none, and the arguments, each in order. -/
structure Given where
  options : List (Text × Text)
  arguments : List Text
deriving DecidableEq, Inhabited

namespace Given

/-- Options in front of what is given after them. -/
def withOptions (options : List (Text × Text)) (g : Given) : Given :=
  { g with options := options ++ g.options }

/-- An argument in front of what is given after it. -/
def withArgument (argument : Text) (g : Given) : Given :=
  { g with arguments := argument :: g.arguments }

/-- The value of an option; the last one counts. -/
def value? (g : Given) (name : Text) : Option Text :=
  (g.options.reverse.find? fun o => o.1 == name).map Prod.snd

/-- Whether an option is given. -/
def has (g : Given) (name : Text) : Bool := g.options.any fun o => o.1 == name

end Given

/-- What one word says: options, and the name of one that still needs its
value. -/
structure Word where
  options : List (Text × Text)
  pending : Option Text
deriving DecidableEq, Inhabited

/-- Options by their letters. -/
def readLetters (forms : List OptionForm) : Text → Except UsageError Word
  | [] => .ok ⟨[], none⟩
  | c :: rest =>
      match forms.find? fun f => f.letter == some c with
      | none => .error (.unknownOption ['-', c])
      | some f =>
          if f.takesValue then
            if rest.isEmpty then .ok ⟨[], some f.name⟩ else .ok ⟨[(f.name, rest)], none⟩
          else do
            let w ← readLetters forms rest
            .ok { w with options := (f.name, []) :: w.options }

/-- An option by its name, with the value after the equals sign. -/
def readNamed (f : OptionForm) (value : Option Text) : Except UsageError Word :=
  match f.takesValue, value with
  | true, some v => .ok ⟨[(f.name, v)], none⟩
  | true, none => .ok ⟨[], some f.name⟩
  | false, some _ => .error (.needlessValue f.name)
  | false, none => .ok ⟨[(f.name, [])], none⟩

/-- The options of a word that begins with a dash. -/
def readWord (forms : List OptionForm) (word : Text) : Except UsageError Word :=
  let name := word.takeWhile (· != '=')
  let value := if word.contains '=' then some (word.drop (name.length + 1)) else none
  match forms.find? fun f => f.name == name with
  | some f => readNamed f value
  | none =>
      if ['-', '-'].isPrefixOf word then .error (.unknownOption name)
      else readLetters forms (word.drop 1)

/-- Whether a word is an option. -/
def isOption (word : Text) : Bool := word.head? = some '-' && 1 < word.length

/-- Read the words of a command line.  Two dashes alone end the options; so does
the first argument, unless options may stand between arguments. -/
def Given.read (forms : List OptionForm) (mixed : Bool) : List Text → Except UsageError Given
  | [] => .ok ⟨[], []⟩
  | word :: rest =>
      if word = ['-', '-'] then .ok ⟨[], rest⟩
      else if isOption word then do
        let w ← readWord forms word
        match w.pending, rest with
        | none, rest => do .ok ((← Given.read forms mixed rest).withOptions w.options)
        | some name, [] => .error (.missingValue name)
        | some name, value :: rest => do
            .ok ((← Given.read forms mixed rest).withOptions (w.options ++ [(name, value)]))
      else if mixed then do .ok ((← Given.read forms mixed rest).withArgument word)
      else .ok ⟨[], word :: rest⟩

end DocPress.Cli
