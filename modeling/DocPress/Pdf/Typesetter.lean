import DocPress.Text.Basic

/-!
# Typesetting

The two fonts of a printed document, and the library that sets its lines.  The library is
given: it knows the sizes of papers, and it measures texts.
-/

namespace DocPress.Pdf

/-- The fonts of a document. -/
inductive Font where
  | body
  | label
deriving DecidableEq, Inhabited

/-- The name of a font in the document. -/
def Font.name : Font → Text
  | body => "helv".toList
  | label => "hebo".toList

/-- A paper size in points. -/
structure Paper where
  width : Int
  height : Int
deriving DecidableEq, Inhabited

/-- What the library that sets lines answers. -/
structure Typesetter where
  /-- The paper of a name. -/
  paper : Text → Paper
  /-- The length of a text in a font of a size. -/
  length : Font → Float → Text → Float

end DocPress.Pdf
