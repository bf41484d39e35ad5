import DocPress.Text.Case

/-!
# Languages of source files

The language of a file is told by the extension of its name.
-/

namespace DocPress

/-- The name of a language that no extension tells. -/
def unknownLanguage : Text := "unknown".toList

/-- The languages by extension, in lower case and without the dot. -/
def languageOfExtension : List (Text × Text) :=
  [("java".toList, "java".toList), ("py".toList, "python".toList), ("xml".toList, "xml".toList),
    ("html".toList, "html".toList), ("css".toList, "css".toList),
    ("js".toList, "javascript".toList), ("ts".toList, "typescript".toList),
    ("c".toList, "cpp".toList), ("cpp".toList, "cpp".toList), ("h".toList, "cpp".toList),
    ("hpp".toList, "cpp".toList), ("cs".toList, "csharp".toList)]

/-- The part of a file name after its last dot.  A leading dot and a trailing
dot mark no extension. -/
def extension? (name : Text) : Option Text :=
  let ext := (name.reverse.takeWhile (· != '.')).reverse
  if ext.length + 1 < name.length && !ext.isEmpty then some ext else none

/-- The language of a file by its name; unknown extensions have none. -/
def detectLanguage (name : Text) : Text :=
  match extension? name with
  | some ext =>
      ((languageOfExtension.find? fun e => e.1 == Text.lower ext).map (·.2)).getD unknownLanguage
  | none => unknownLanguage

end DocPress
