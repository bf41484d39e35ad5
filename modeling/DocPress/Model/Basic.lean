import DocPress.Comment.Block

/-!
# The documentation tree

A project owns files, a file owns type declarations, a declaration owns fields
and methods, and a method owns parameters.  The tree is a plain value: it is
built by a scan and only read afterwards.
-/

namespace DocPress

/-- A field of a type declaration. -/
structure Field where
  name : Text
  typeText : Text
  documentation : Option Block
deriving DecidableEq, Inhabited

/-- A method of a type declaration.  The parameters are those its block
described when the block was attached. -/
structure Method where
  name : Text
  signature : Text
  returnType : Text
  documentation : Option Block
  parameters : List Parameter
deriving DecidableEq, Inhabited

/-- The parameters that an attached block gives a method. -/
def attachedParameters (block : Option Block) : List Parameter :=
  (block.map Block.parameters).getD []

/-- A method whose parameters are those of its block. -/
def Method.make (name signature returnType : Text) (documentation : Option Block) : Method :=
  { name := name
    signature := signature
    returnType := returnType
    documentation := documentation
    parameters := attachedParameters documentation }

/-- The description of the returned value, read from the attached block. -/
def Method.returnDescription? (m : Method) : Option Text :=
  m.documentation.bind Block.returnValue?

/-- A type declaration with its members in source order. -/
structure TypeDecl where
  name : Text
  kind : Text
  documentation : Option Block
  fields : List Field
  methods : List Method
deriving DecidableEq, Inhabited

/-- A documented source file. -/
structure FileDoc where
  name : Text
  path : Text
  language : Text
  classes : List TypeDecl
deriving DecidableEq, Inhabited

/-- A documented project. -/
structure Project where
  name : Text
  files : List FileDoc
deriving DecidableEq, Inhabited

/-- How many entities of each kind a project holds. -/
structure Counts where
  files : Nat
  classes : Nat
  fields : Nat
  methods : Nat
  parameters : Nat
deriving DecidableEq, Inhabited

namespace Project

/-- All type declarations in file order. -/
def classes (p : Project) : List TypeDecl := p.files.flatMap FileDoc.classes

/-- All methods in declaration order. -/
def methods (p : Project) : List Method := p.classes.flatMap TypeDecl.methods

/-- The number of entities at every level. -/
def counts (p : Project) : Counts :=
  { files := p.files.length
    classes := p.classes.length
    fields := (p.classes.flatMap TypeDecl.fields).length
    methods := p.methods.length
    parameters := (p.methods.flatMap Method.parameters).length }

end Project
end DocPress
