import DocPress.Text.Basic

/-!
# Data about characters

Two tables of the Unicode standard that Python text is read with.  They are given.
-/

namespace DocPress.Docstring

/-- The tables that come with the language. -/
structure CharacterData where
  /-- The character of a name. -/
  named? : Text → Option Char
  /-- A word with compatible characters made the same (normalization form KC). -/
  normal : Text → Text

/-- A word as a name: words of ASCII characters need no table. -/
def CharacterData.name (data : CharacterData) (word : Text) : Text :=
  if word.all fun c => c.toNat < 128 then word else data.normal word

end DocPress.Docstring
