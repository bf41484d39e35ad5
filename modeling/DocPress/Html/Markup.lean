import DocPress.Text.Basic

/-!
# Markup

A page is a sequence of fixed pieces and of texts.  Only texts are escaped,
and each exactly once, so what a text holds never becomes markup.
-/

namespace DocPress.Html

/-- A character of a text as it stands in a page. -/
def escapeChar (c : Char) : Text :=
  if c = '&' then "&amp;".toList
  else if c = '<' then "&lt;".toList
  else if c = '>' then "&gt;".toList
  else if c = '\'' then "&#39;".toList
  else if c = '"' then "&#34;".toList
  else [c]

/-- A text as it stands in a page. -/
def escape (t : Text) : Text := t.flatMap escapeChar

/-- A piece of a page. -/
inductive Piece where
  /-- Markup, written as it is. -/
  | fixed (t : Text)
  /-- Text, written escaped. -/
  | text (t : Text)
deriving DecidableEq

/-- A piece as it stands in a page. -/
def Piece.render : Piece → Text
  | fixed t => t
  | text t => escape t

/-- Pieces in order. -/
abbrev Markup := List Piece

/-- The text of a page. -/
def Markup.render (m : Markup) : Text := m.flatMap Piece.render

/-- Fixed markup. -/
def fixed (s : String) : Piece := .fixed s.toList

end DocPress.Html
