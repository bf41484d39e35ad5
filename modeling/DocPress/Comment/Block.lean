import DocPress.Comment.Basic
import DocPress.Text.Quoted

/-!
# Documentation blocks

A block is known by its raw text alone; description, tags and parameters are
read off that text, so they can never disagree with it.
-/

namespace DocPress

/-- A documented parameter of a method. -/
structure Parameter where
  name : Text
  description : Text
deriving DecidableEq, Inhabited

/-- Cut a value at its first run of blanks: the first word is the name. -/
def Parameter.ofValue (value : Text) : Parameter :=
  let t := Text.trim value
  { name := t.takeWhile (!Text.isBlank ·)
    description := Text.trim (t.dropWhile (!Text.isBlank ·)) }

/-- A documentation comment attached to a declaration. -/
structure Block where
  rawText : Text
deriving DecidableEq, Inhabited

namespace Block

/-- The tag whose values describe parameters. -/
def paramTag : Text := ['p', 'a', 'r', 'a', 'm']

/-- The tag whose first value describes the returned value. -/
def returnTag : Text := ['r', 'e', 't', 'u', 'r', 'n']

/-- The text before the first tag. -/
def description (b : Block) : Text := (Comment.parse b.rawText).description

/-- The tags of the block. -/
def tags (b : Block) : Comment.Tags := (Comment.parse b.rawText).tags

/-- All values of one tag. -/
def tagValues (b : Block) (name : Text) : List Text := b.tags.values name

/-- The first value of one tag, if the tag occurs. -/
def firstTagValue? (b : Block) (name : Text) : Option Text := (b.tagValues name).head?

/-- The description of the returned value, if there is one. -/
def returnValue? (b : Block) : Option Text := b.firstTagValue? returnTag

/-- The parameters the block describes, in source order. -/
def parameters (b : Block) : List Parameter := (b.tagValues paramTag).map Parameter.ofValue

/-- The tag values that no section of their own shows. -/
def otherTags (b : Block) : List (Text × Text) :=
  Comment.Tags.pairs
    (b.tags.filter fun entry => !(entry.1 == paramTag || entry.1 == returnTag))

/-- Tags as they are shown in reports. -/
def shownTags (tags : Comment.Tags) : Text :=
  let entry := fun (e : Text × List Text) => Text.quoted e.1 ++ ':' :: ' ' :: Text.quotedList e.2
  '\x7b' :: Text.join [',', ' '] (tags.map entry) ++ ['\x7d']

/-- The block as it is shown in reports. -/
def shown (b : Block) : Text :=
  "DocumentationBlock(description=".toList ++ Text.quoted b.description ++ ", tags=".toList
    ++ shownTags b.tags ++ [')']

end Block
end DocPress
