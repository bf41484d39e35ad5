import DocPress.Source.Language
import DocPress.Text.Quoted

/-!
# Source units

A unit is one file handed to the scanners.  Its language follows from its name
unless it was given, and is found again when the unit is renamed.
-/

namespace DocPress

/-- One source file to document. -/
structure SourceUnit where
  name : Text
  path : Text
  content : Text
  language : Text
deriving DecidableEq, Inhabited

namespace SourceUnit

/-- A unit whose language is found by its name unless it is given. -/
def make (name path content : Text) (language : Option Text) : SourceUnit :=
  ⟨name, path, content, language.getD (detectLanguage name)⟩

/-- The unit under another name. -/
def renamed (u : SourceUnit) (name : Text) : SourceUnit :=
  make name u.path u.content none

/-- Whether there is nothing to scan. -/
def isBlank (u : SourceUnit) : Bool := Text.isAllBlank u.content

/-- The unit as it is shown in reports. -/
def shown (u : SourceUnit) : Text :=
  "SourceUnit(name=".toList ++ Text.quoted u.name ++ ", path=".toList ++ Text.quoted u.path
    ++ ", language=".toList ++ Text.quoted u.language ++ [')']

end SourceUnit
end DocPress
