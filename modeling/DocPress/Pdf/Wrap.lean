import DocPress.Text.Basic

/-!
# Wrapping

Text is broken into lines greedily: a word goes on the current line as long as
the line is not too wide with it.  A single word is never broken.
-/

namespace DocPress.Pdf

open Text

/-- The lines of a paragraph whose current line is given.  `tooWide` measures
a line. -/
def wrapWords (tooWide : Text → Bool) : Text → List Text → List Text
  | current, [] => [current]
  | current, word :: more =>
      if current.isEmpty then wrapWords tooWide word more
      else
        let candidate := current ++ ' ' :: word
        if tooWide candidate then current :: wrapWords tooWide word more
        else wrapWords tooWide candidate more

/-- The lines of a paragraph. -/
def wrapParagraph (tooWide : Text → Bool) (paragraph : Text) : List Text :=
  wrapWords tooWide [] (words paragraph)

/-- The paragraphs of a text; an empty text has one empty paragraph. -/
def paragraphs (t : Text) : List Text :=
  match lines t with
  | [] => [[]]
  | ls => ls

/-- The lines of a text. -/
def wrap (tooWide : Text → Bool) (t : Text) : List Text :=
  (paragraphs t).flatMap (wrapParagraph tooWide)

end DocPress.Pdf
