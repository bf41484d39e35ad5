import DocPress.Model.Basic

/-!
# Page names

Every file that declares a type gets a page.  The name of the page is made
from the path of the file; names that differ only in letter case count as
equal, and a name in use is made new by a number.
-/

namespace DocPress.Html

/-- The page that lists all files. -/
def indexPage : Text := "index.html".toList

/-- The place of the stylesheet below the output directory. -/
def stylesheetPath : Text := "css/style.css".toList

/-- Characters that a page key keeps. -/
def isKeyChar (c : Char) : Bool := c.isAlphanum || c == '_' || c == '-'

/-- The text without the slashes around it. -/
def trimSlashes (t : Text) : Text :=
  ((t.dropWhile (· == '/')).reverse.dropWhile (· == '/')).reverse

/-- The key of a file's page: every other character becomes an underscore, and
an empty path is one underscore. -/
def pageKey (path : Text) : Text :=
  match (trimSlashes path).map fun c => if isKeyChar c then c else '_' with
  | [] => ['_']
  | key => key

/-- The name of a page without a number. -/
def plainName (key : Text) : Text := key ++ ".html".toList

/-- The name of a page with a number. -/
def numberedName (key : Text) (n : Nat) : Text := key ++ '-' :: Text.ofNat n ++ ".html".toList

/-- Names are compared without regard to letter case. -/
def foldCase (t : Text) : Text := t.map Char.toLower

/-- The first numbered name not in use, from `n` on.  More numbers than there
are names in use need not be tried. -/
def freeNumbered (taken : List Text) (key : Text) : Nat → Nat → Text
  | 0, n => numberedName key n
  | fuel + 1, n =>
      if taken.contains (foldCase (numberedName key n)) then freeNumbered taken key fuel (n + 1)
      else numberedName key n

/-- A name for the page of a file that is not in use. -/
def freshName (taken : List Text) (path : Text) : Text :=
  let key := pageKey path
  if taken.contains (foldCase (plainName key)) then freeNumbered taken key taken.length 2
  else plainName key

/-- Page names for files given by path and whether they declare a type. -/
def assignFrom (taken : List Text) : List (Text × Bool) → List (Option Text)
  | [] => []
  | (path, documented) :: more =>
      if documented then
        let name := freshName taken path
        some name :: assignFrom (foldCase name :: taken) more
      else none :: assignFrom taken more

/-- Page names that avoid the index page and the stylesheet. -/
def assignNames (files : List (Text × Bool)) : List (Option Text) :=
  assignFrom [indexPage, stylesheetPath] files

/-- The page names of a project's files, in file order. -/
def pageNames (files : List FileDoc) : List (Option Text) :=
  assignNames (files.map fun f => (f.path, !f.classes.isEmpty))

end DocPress.Html
