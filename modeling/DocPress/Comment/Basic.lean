import DocPress.Text.Basic

/-!
# Documentation comments

A comment is reduced to its normal form (delimiters and the star of each line
removed) and then cut at its tag markers into a description and tag values.
A marker is an at sign at the start of a word, followed by a name that fills
the rest of that word.
-/

namespace DocPress.Comment

open Text

/-- One line of a comment after the first: trimmed, less one leading star. -/
def stripStar (line : Text) : Text :=
  match trim line with
  | '*' :: rest => trim rest
  | t => t

/-- The comment text between its delimiters, either of which may be missing. -/
def body (raw : Text) : Text :=
  let t := trim raw
  let t := (after? ['/', '*', '*'] t).getD t
  (before? ['*', '/'] t).getD t

/-- The normal form of a comment: no delimiters, no leading stars on the lines
after the first, every line trimmed, lines separated by single line feeds. -/
def normalize (raw : Text) : Text :=
  match lines (body raw) with
  | [] => []
  | first :: others => trim (join ['\n'] (trim first :: others.map stripStar))

/-- The name of the tag marker at the head of a text, if one stands there. -/
def markerName? : Text → Option Text
  | '@' :: rest =>
      let name := rest.takeWhile isWordChar
      match name, rest.dropWhile isWordChar with
      | [], _ => none
      | _, [] => some name
      | _, c :: _ => if isBlank c then some name else none
  | _ => none

/-- Cut a text at its markers: the part before the first one, then each
marker's name with the part up to the next.  `fresh` says that a word may
start here, at the start of the text or after a blank. -/
def cut (fresh : Bool) (t : Text) : Text × List (Text × Text) :=
  match t with
  | [] => ([], [])
  | c :: rest =>
      match if fresh then markerName? (c :: rest) else none with
      | some name =>
          let (value, more) := cut false (rest.drop name.length)
          ([], (name, value) :: more)
      | none =>
          let (head, more) := cut (isBlank c) rest
          (c :: head, more)
termination_by t.length
decreasing_by
  · simp only [List.length_drop, List.length_cons]
    omega
  · simp only [List.length_cons]
    omega

/-- Tag values by name, names in the order of their first appearance. -/
abbrev Tags := List (Text × List Text)

namespace Tags

/-- Record one more value of a tag, after the values it already has. -/
def add : Tags → Text → Text → Tags
  | [], name, value => [(name, [value])]
  | (n, vs) :: more, name, value =>
      if n = name then (n, vs ++ [value]) :: more else (n, vs) :: add more name value

/-- Group marked values by name. -/
def ofPairs (pairs : List (Text × Text)) : Tags :=
  pairs.foldl (fun tags p => tags.add p.1 p.2) []

/-- All values of a tag in source order; none when the tag is absent. -/
def values (tags : Tags) (name : Text) : List Text :=
  ((tags.find? fun entry => entry.1 == name).map (·.2)).getD []

/-- Every value with the name of its tag, tag by tag. -/
def pairs (tags : Tags) : List (Text × Text) :=
  tags.flatMap fun entry => entry.2.map fun v => (entry.1, v)

end Tags

/-- Description and tags of a comment. -/
structure Parsed where
  description : Text
  tags : Tags
deriving DecidableEq

/-- Read a comment: normalize it and cut it at its markers. -/
def parse (raw : Text) : Parsed :=
  let (head, marked) := cut true (normalize raw)
  { description := trim head
    tags := Tags.ofPairs (marked.map fun p => (p.1, trim p.2)) }

end DocPress.Comment
