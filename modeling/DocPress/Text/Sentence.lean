import DocPress.Text.Basic

/-!
# First sentences

The first sentence of a text ends at the first period that is followed by a
blank or by the end of the text.
-/

namespace DocPress.Text

/-- The text up to and with its first period before a space or the end; the
whole text when there is none. -/
def throughPeriod : Text → Text
  | [] => []
  | c :: rest =>
      if c = '.' then
        match rest with
        | [] => [c]
        | d :: _ => if isBlank d then [c] else c :: throughPeriod rest
      else c :: throughPeriod rest

/-- The first sentence, its words separated by single spaces. -/
def firstSentence (t : Text) : Text := throughPeriod (join [' '] (words t))

end DocPress.Text
