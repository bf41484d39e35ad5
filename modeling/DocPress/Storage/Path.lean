import DocPress.Text.Basic

/-!
# Paths

A path is a root, which is empty for a relative path, and the names below it.
Separators in a row count once and names that stay in place are dropped; steps
back are kept, because what they mean depends on the disk.
-/

namespace DocPress

/-- A path to a file or directory. -/
structure Path where
  root : Text
  parts : List Text
deriving DecidableEq, Inhabited

namespace Path

/-- The root of a path: exactly two separators are a root of their own. -/
def rootOf (t : Text) : Text :=
  match (t.takeWhile (· = '/')).length with
  | 0 => []
  | 2 => ['/', '/']
  | _ => ['/']

/-- A path from its text. -/
def ofText (t : Text) : Path :=
  ⟨rootOf t, (Text.splitAt '/' t).filter fun p => !p.isEmpty && p != ['.']⟩

/-- The text of a path. -/
def toText (p : Path) : Text :=
  match p.root ++ Text.join ['/'] p.parts with
  | [] => ['.']
  | t => t

/-- A path below another one; one with a root stands for itself. -/
def append (p q : Path) : Path :=
  if q.root.isEmpty then ⟨p.root, p.parts ++ q.parts⟩ else q

instance : HDiv Path Path Path := ⟨append⟩

/-- The last name of a path. -/
def name (p : Path) : Text := p.parts.getLast?.getD []

/-- The end of the last name from its last dot on.  A dot at either end of the
name begins no suffix. -/
def suffix (p : Path) : Text :=
  let after := p.name.reverse.takeWhile (· != '.')
  let before := p.name.take (p.name.length - after.length - 1)
  if after.isEmpty || before.isEmpty || after.length = p.name.length then []
  else '.' :: after.reverse

/-- The path without its last name. -/
def parent (p : Path) : Path := ⟨p.root, p.parts.dropLast⟩

end Path
end DocPress
