import DocPress.Model.Basic
import DocPress.Text.Quoted

/-!
# Building a tree step by step

A workspace grows a project by single operations.  Blocks may be shared by
several methods and declarations and edited later.  A method keeps the
parameters its block had when it was attached, while everything else is read
from the block as it is now.
-/

namespace DocPress.Workspace

/-- The documentation of an entity: a block of its own or a shared one. -/
inductive Doc where
  | none
  | own (b : Block)
  | shared (id : Nat)
deriving DecidableEq, Inhabited

/-- A method under construction. -/
structure MethodEntry where
  name : Text
  signature : Text
  returnType : Text
  doc : Doc
  parameters : List Parameter
deriving Inhabited

/-- A declaration under construction; methods by number. -/
structure TypeEntry where
  name : Text
  kind : Text
  doc : Doc
  fields : List Field
  methods : List Nat
deriving Inhabited

/-- A file under construction; declarations by number. -/
structure FileEntry where
  name : Text
  path : Text
  language : Text
  classes : List Nat
deriving Inhabited

/-- A project under construction.  Entities are numbered in creation order. -/
structure State where
  name : Text
  blocks : List Block
  methods : List MethodEntry
  types : List TypeEntry
  files : List FileEntry
deriving Inhabited

/-- The workspace of a project without files. -/
def State.empty (name : Text) : State := ⟨name, [], [], [], []⟩

/-- The operations on a workspace. -/
inductive Operation where
  | addFile (f : FileDoc)
  | addType (file : Nat) (c : TypeDecl)
  | addField (type : Nat) (f : Field)
  | addMethod (type : Nat) (m : Method)
  | addBlock (raw : Text)
  | attach (method : Nat) (block : Option Nat)
  | editBlock (block : Nat) (raw : Text)
  | shareWithType (type : Nat) (block : Nat)
  | inspect (method : Nat)

/-- What an operation answers. -/
inductive Answer where
  | nothing
  | flag (b : Bool)
  | count (n : Nat)
  | text (t : Text)
  | optional (t : Option Text)
  | method (m : Method) (returnDescription : Option Text)

namespace State

/-- The block behind a documentation reference. -/
def block? (s : State) : Doc → Option Block
  | .none => Option.none
  | .own b => some b
  | .shared id => s.blocks[id]?

/-- A method as it stands now. -/
def method (s : State) (m : MethodEntry) : Method :=
  { name := m.name
    signature := m.signature
    returnType := m.returnType
    documentation := s.block? m.doc
    parameters := m.parameters }

/-- A declaration as it stands now. -/
def typeDecl (s : State) (c : TypeEntry) : TypeDecl :=
  { name := c.name
    kind := c.kind
    documentation := s.block? c.doc
    fields := c.fields
    methods := c.methods.filterMap fun id => s.methods[id]?.map s.method }

/-- A file as it stands now. -/
def fileDoc (s : State) (f : FileEntry) : FileDoc :=
  { name := f.name
    path := f.path
    language := f.language
    classes := f.classes.filterMap fun id => s.types[id]?.map s.typeDecl }

/-- The project as it stands now. -/
def project (s : State) : Project := ⟨s.name, s.files.map s.fileDoc⟩

/-- The reference to a block that no other entity shares. -/
def ownDoc : Option Block → Doc
  | .none => .none
  | some b => .own b

/-- Number a finished method and give back its number. -/
def pushMethod (s : State) (m : Method) : State × Nat :=
  let entry : MethodEntry :=
    ⟨m.name, m.signature, m.returnType, ownDoc m.documentation, m.parameters⟩
  ({ s with methods := s.methods ++ [entry] }, s.methods.length)

/-- Number finished methods in order. -/
def pushMethods (s : State) : List Method → State × List Nat
  | [] => (s, [])
  | m :: more =>
      let (s, id) := s.pushMethod m
      let (s, ids) := s.pushMethods more
      (s, id :: ids)

/-- Number a finished declaration and its methods. -/
def pushType (s : State) (c : TypeDecl) : State × Nat :=
  let (s, methods) := s.pushMethods c.methods
  let entry : TypeEntry := ⟨c.name, c.kind, ownDoc c.documentation, c.fields, methods⟩
  ({ s with types := s.types ++ [entry] }, s.types.length)

/-- Number finished declarations in order. -/
def pushTypes (s : State) : List TypeDecl → State × List Nat
  | [] => (s, [])
  | c :: more =>
      let (s, id) := s.pushType c
      let (s, ids) := s.pushTypes more
      (s, id :: ids)

/-- The description of the returned value of a method by number. -/
def returnDescription? (s : State) (id : Nat) : Option Text :=
  s.methods[id]?.bind fun m => (s.method m).returnDescription?

/-- Carry out one operation. -/
def apply (s : State) : Operation → State × Answer
  | .addFile f =>
      let (s, classes) := s.pushTypes f.classes
      let entry : FileEntry := ⟨f.name, f.path, f.language, classes⟩
      ({ s with files := s.files ++ [entry] }, .flag (!classes.isEmpty))
  | .addType file c =>
      let (s, id) := s.pushType c
      let files := s.files.modify file fun f => { f with classes := f.classes ++ [id] }
      ({ s with files := files }, .flag true)
  | .addField type f =>
      let types := s.types.modify type fun c => { c with fields := c.fields ++ [f] }
      ({ s with types := types }, .count ((types[type]?.map (·.fields.length)).getD 0))
  | .addMethod type m =>
      let (s, id) := s.pushMethod m
      let types := s.types.modify type fun c => { c with methods := c.methods ++ [id] }
      let shown : Text := "MethodModel(name=".toList ++ Text.quoted m.name
        ++ ", return_type=".toList ++ Text.quoted m.returnType ++ [')']
      ({ s with types := types }, .text shown)
  | .addBlock raw =>
      ({ s with blocks := s.blocks ++ [⟨raw⟩] }, .count (s.blocks.length + 1))
  | .attach method block =>
      let doc : Doc := match block with | .none => .none | some id => .shared id
      let parameters := attachedParameters (s.block? doc)
      let s := { s with
        methods := s.methods.modify method fun m =>
          { m with doc := doc, parameters := parameters } }
      (s, .optional (s.returnDescription? method))
  | .editBlock block raw =>
      ({ s with blocks := s.blocks.modify block fun _ => ⟨raw⟩ },
        .optional (Block.returnValue? ⟨raw⟩))
  | .shareWithType type block =>
      let types := s.types.modify type fun c => { c with doc := .shared block }
      ({ s with types := types }, .nothing)
  | .inspect method =>
      match s.methods[method]? with
      | some m => (s, .method (s.method m) (s.returnDescription? method))
      | .none => (s, .nothing)

end State
end DocPress.Workspace
