import DocPress.Text.Basic

/-!
# Elements

An element has a name, attributes, children and the text before its first
child.  Text between and after children says nothing in this library's
documents, so it is not kept.
-/

namespace DocPress.Xml

/-- An element of a document. -/
inductive Element where
  | mk (name : Text) (attributes : List (Text × Text)) (text : Text) (children : List Element)
deriving Inhabited

namespace Element

/-- The name of an element. -/
def name : Element → Text
  | mk name _ _ _ => name

/-- The attributes of an element in order. -/
def attributes : Element → List (Text × Text)
  | mk _ attributes _ _ => attributes

/-- The text before the first child. -/
def text : Element → Text
  | mk _ _ text _ => text

/-- The children of an element in order. -/
def children : Element → List Element
  | mk _ _ _ children => children

/-- The value of an attribute; a missing one counts as empty. -/
def value (e : Element) (key : Text) : Text := ((e.attributes.lookup key).getD [])

/-- The children of the given name. -/
def named (e : Element) (key : Text) : List Element := e.children.filter fun c => c.name == key

/-- The first child of the given name. -/
def child? (e : Element) (key : Text) : Option Element := e.children.find? fun c => c.name == key

/-- The grandchildren of one name below the children of another. -/
def grandchildren (e : Element) (outer inner : Text) : List Element :=
  (e.named outer).flatMap fun c => c.named inner

/-- An element that holds text only. -/
def leaf (name : Text) (attributes : List (Text × Text)) (text : Text) : Element :=
  mk name attributes text []

/-- An element that holds children only. -/
def branch (name : Text) (attributes : List (Text × Text)) (children : List Element) : Element :=
  mk name attributes [] children

end Element
end DocPress.Xml
