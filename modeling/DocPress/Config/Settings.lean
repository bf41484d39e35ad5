import DocPress.Config.Error
import DocPress.Decimal.Reader
import DocPress.Pdf.Layout
import DocPress.Text.Case

/-!
# Settings

The settings of a run, by section.  Each section is read from its own entry of
the configuration; a section that is missing or empty has its defaults.
-/

namespace DocPress

/-- What is documented, and under which name. -/
structure ProjectSettings where
  name : Text
  /-- Patterns of the files to read; with none, all files are read. -/
  included : List Value
  /-- Patterns of the files to leave out. -/
  excluded : List Value
deriving Inhabited

/-- Where the documentation goes, and in which format. -/
structure OutputSettings where
  path : Text
  format : Text
deriving DecidableEq, Inhabited

/-- All settings of a run. -/
structure Settings where
  project : ProjectSettings
  output : OutputSettings
  /-- The stylesheet that replaces the bundled one, as it was given. -/
  stylesheet : Value
  pdf : Pdf.Settings

namespace ProjectSettings

/-- The settings of a project that asks for none. -/
def default : ProjectSettings where
  name := "Generated Documentation".toList
  included := []
  excluded := [".git/*", "node_modules/*", "target/*", "build/*"].map fun p => .text p.toList

end ProjectSettings

namespace OutputSettings

/-- The settings of an output that asks for none. -/
def default : OutputSettings := ⟨"docs".toList, "html".toList⟩

end OutputSettings

namespace Settings

/-- The settings of a run without a configuration. -/
def default : Settings := ⟨.default, .default, .null, .default⟩

/-- The entries of a section; an empty value has none. -/
def entries (v : Value) : Except ConfigError (List (Value × Value)) :=
  if v.isEmpty then .ok []
  else
    match v with
    | .map entries => .ok entries
    | v => .error (.notMapping v)

/-- The items of a list of patterns; an empty value has none. -/
def items (v : Value) : Except ConfigError (List Value) :=
  if v.isEmpty then .ok []
  else
    match v with
    | .text t => .ok (t.map fun c => .text [c])
    | .bytes bs => .ok (bs.map fun b => .int (Int.ofNat b))
    | .list vs => .ok vs
    | .tuple vs => .ok vs
    | .set vs => .ok vs
    | .map entries => .ok (entries.map Prod.fst)
    | v => .error (.notList v)

/-- The number that a value stands for. -/
def number : Value → Except ConfigError Float
  | .bool b => .ok (if b then 1 else 0)
  | .float x => .ok x
  | .int n =>
      match Decimal.floatOfInt? n with
      | some x => .ok x
      | none => .error .tooLarge
  | .text t =>
      match Decimal.float? t with
      | some x => .ok x
      | none => .error (.notNumeral (.text t))
  | .bytes bs =>
      match Decimal.float? (bs.map Char.ofNat) with
      | some x => if bs.all (· < 128) then .ok x else .error (.notNumeral (.bytes bs))
      | none => .error (.notNumeral (.bytes bs))
  | v => .error (.notNumber v)

/-- The paper sizes that a configuration may name. -/
def pageSizes : List Text := ["a4".toList, "letter".toList]

/-- The page settings, if they are valid. -/
def checked (s : Pdf.Settings) : Except ConfigError Pdf.Settings :=
  if !pageSizes.contains s.pageSize then .error (.pageSize s.pageSize)
  else if s.fontSize <= 0 then .error (.fontSize s.fontSize)
  else if s.margin < 0 then .error (.margin s.margin)
  else .ok s

/-- The text of an entry, or the given one if the entry is missing. -/
def textOr (entries : List (Value × Value)) (key : String) (missing : Text) : Text :=
  ((Value.lookup? entries key.toList).map Value.toText).getD missing

/-- The number of an entry, or the given one if the entry is missing. -/
def numberOr (entries : List (Value × Value)) (key : String) (missing : Float) :
    Except ConfigError Float :=
  match Value.lookup? entries key.toList with
  | some v => number v
  | none => .ok missing

/-- The section about the project. -/
def projectOf (part : Value) : Except ConfigError ProjectSettings := do
  let es ← entries part
  let included ← items ((Value.lookup? es "include".toList).getD .null)
  let excluded ← match Value.lookup? es "exclude".toList with
    | some v => items v
    | none => .ok ProjectSettings.default.excluded
  .ok ⟨textOr es "name" ProjectSettings.default.name, included, excluded⟩

/-- The section about the output.  The format is kept in lower case. -/
def outputOf (part : Value) : Except ConfigError OutputSettings := do
  let es ← entries part
  .ok ⟨textOr es "path" OutputSettings.default.path,
    Text.lower (textOr es "format" OutputSettings.default.format)⟩

/-- The section about pages of linked documents. -/
def stylesheetOf (part : Value) : Except ConfigError Value := do
  let es ← entries part
  .ok ((Value.lookup? es "stylesheet".toList).getD .null)

/-- The section about printed documents. -/
def pdfOf (part : Value) : Except ConfigError Pdf.Settings := do
  let es ← entries part
  let fontSize ← numberOr es "font_size" Pdf.Settings.default.fontSize
  let margin ← numberOr es "margin" Pdf.Settings.default.margin
  checked ⟨Text.lower (textOr es "page_size" Pdf.Settings.default.pageSize), fontSize, margin⟩

/-- A section of the data, if the data mentions it. -/
def section? (data : Value) (key : String) : Except ConfigError (Option Value) :=
  match data with
  | .map entries => .ok (Value.lookup? entries key.toList)
  | .list items => mentioned (items.any fun v => v.sameKey (.text key.toList))
  | .tuple items => mentioned (items.any fun v => v.sameKey (.text key.toList))
  | .set items => mentioned (items.any fun v => v.sameKey (.text key.toList))
  | .text t => mentioned (Text.occursIn key.toList t)
  | v => .error (.notCollection v)
where
  /-- A section cannot be taken from data that only mentions it. -/
  mentioned (found : Bool) : Except ConfigError (Option Value) :=
    if found then .error (.notSections data) else .ok none

/-- What a section says, or its default if it is missing. -/
def sectionOr {α : Type} (data : Value) (key : String) (read : Value → Except ConfigError α)
    (missing : α) : Except ConfigError α := do
  match ← section? data key with
  | some v => read v
  | none => .ok missing

/-- The settings of data without references. -/
def ofPlain (data : Value) : Except ConfigError Settings := do
  let project ← sectionOr data "project" projectOf .default
  let output ← sectionOr data "output" outputOf .default
  let stylesheet ← sectionOr data "html" stylesheetOf .null
  let pdf ← sectionOr data "pdf" pdfOf .default
  .ok ⟨project, output, stylesheet, pdf⟩

/-- The settings of data, with the references in it replaced first. -/
def ofValue (env : Environment) (data : Value) : Except ConfigError Settings :=
  match env.substitute data with
  | .ok plain => ofPlain plain
  | .error e => .error (.unset e)

/-- The configuration that a new project starts with. -/
def template : Text :=
  Text.join ['\n'] (templateLines.map String.toList) ++ ['\n']
where
  /-- Its lines. -/
  templateLines : List String :=
    ["# docsmith configuration",
      "",
      "# Project settings",
      "project:",
      "  name: \"Generated Documentation\"",
      "  # include:            # Glob patterns of files to read (default: all)",
      "  #   - \"src/*\"",
      "  exclude:",
      "    - \".git/*\"",
      "    - \"node_modules/*\"",
      "    - \"target/*\"",
      "    - \"build/*\"",
      "",
      "# Output settings",
      "output:",
      "  path: \"docs\"      # File for xml/pdf, base directory for html",
      "  format: \"html\"    # xml, html, pdf",
      "",
      "# HTML document set",
      "html:",
      "  # stylesheet: \"docs/custom.css\"",
      "",
      "# PDF layout",
      "pdf:",
      "  page_size: \"a4\"   # a4, letter",
      "  font_size: 10",
      "  margin: 50"]

end Settings
end DocPress
