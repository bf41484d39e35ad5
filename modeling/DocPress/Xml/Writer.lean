import DocPress.Xml.Element

/-!
# Writing documents

An element is written on lines of its own, indented by two blanks for each
element around it.  An element without text and children is written as one
empty tag.  In text the characters of markup are escaped; in attribute values
also the quotation mark and the characters that a reader would change.
-/

namespace DocPress.Xml

/-- A character of text. -/
def escapeChar (c : Char) : Text :=
  if c = '&' then "&amp;".toList
  else if c = '<' then "&lt;".toList
  else if c = '>' then "&gt;".toList
  else [c]

/-- A character of an attribute value. -/
def escapeValueChar (c : Char) : Text :=
  if c = '"' then "&quot;".toList
  else if c = '\r' then "&#13;".toList
  else if c = '\n' then "&#10;".toList
  else if c = '\t' then "&#09;".toList
  else escapeChar c

/-- Text as it stands between tags. -/
def escapeText (t : Text) : Text := t.flatMap escapeChar

/-- Text as it stands between the quotation marks of an attribute. -/
def escapeValue (t : Text) : Text := t.flatMap escapeValueChar

/-- The attributes of a tag, each after a blank. -/
def writeAttributes (attributes : List (Text × Text)) : Text :=
  attributes.flatMap fun a => ' ' :: a.1 ++ '=' :: '"' :: escapeValue a.2 ++ ['"']

/-- The start of a line that is indented to a depth. -/
def newLine (depth : Nat) : Text := '\n' :: List.replicate (2 * depth) ' '

mutual

/-- An element at a depth. -/
def Element.write (depth : Nat) : Element → Text
  | .mk name attributes text children =>
      let start := '<' :: name ++ writeAttributes attributes
      match text, children with
      | [], [] => start ++ " />".toList
      | text, [] => start ++ '>' :: escapeText text ++ '<' :: '/' :: name ++ ['>']
      | text, first :: others =>
          start ++ '>' :: escapeText text ++ writeChildren (depth + 1) (first :: others)
            ++ newLine depth ++ '<' :: '/' :: name ++ ['>']

/-- Elements at a depth, each on a new line. -/
def writeChildren (depth : Nat) : List Element → Text
  | [] => []
  | e :: more => newLine depth ++ e.write depth ++ writeChildren depth more

end

/-- The first line of every document. -/
def declaration : Text := "<?xml version=\"1.0\" encoding=\"UTF-8\"?>\n".toList

/-- A whole document. -/
def writeDocument (root : Element) : Text := declaration ++ root.write 0 ++ ['\n']

end DocPress.Xml
