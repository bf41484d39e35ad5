import DocPress.Model.Walk
import DocPress.Pdf.Block
import DocPress.Xml.Project
import Mathlib.Data.List.Basic

/-!
# Traversals of the tree

Four parts of the library go through a project on their own: the walk, the counts, the
document and the printed blocks.  Each is told here by what it does below one file, one
declaration and one method, so that the four can be compared level by level.

The main statement is that they go the same way: the walk visits every entity once, as
often as it is counted, in the order in which the document holds its element, and after
two blocks of title the printed document has one block for each step of the walk.
-/

namespace DocPress

/-- The kinds of entities of a tree. -/
inductive EntityKind where
  | file
  | type
  | field
  | method
  | parameter
deriving DecidableEq

namespace EntityKind

/-- How deep the entities of a kind lie below the project. -/
def level : EntityKind → Nat
  | file => 0
  | type => 1
  | field => 2
  | method => 2
  | parameter => 3

end EntityKind

namespace Entity

/-- The kind of an entity. -/
def kind : Entity → EntityKind
  | .file _ => .file
  | .type _ => .type
  | .field _ => .field
  | .method _ => .method
  | .parameter _ => .parameter

/-- The file that an entity is. -/
def file? : Entity → Option FileDoc
  | .file f => some f
  | _ => none

/-- The declaration that an entity is. -/
def type? : Entity → Option TypeDecl
  | .type c => some c
  | _ => none

/-- The field that an entity is. -/
def field? : Entity → Option Field
  | .field f => some f
  | _ => none

/-- The method that an entity is. -/
def method? : Entity → Option Method
  | .method m => some m
  | _ => none

/-- The parameter that an entity is. -/
def parameter? : Entity → Option Parameter
  | .parameter p => some p
  | _ => none

end Entity

/-- How many steps of a walk are at an entity of a kind. -/
def stepsAt (kind : EntityKind) (steps : List WalkStep) : Nat :=
  steps.countP fun s => s.entity.kind == kind

/-- The steps of a walk, counted by the kinds of their entities. -/
def Counts.ofSteps (steps : List WalkStep) : Counts :=
  { files := stepsAt .file steps
    classes := stepsAt .type steps
    fields := stepsAt .field steps
    methods := stepsAt .method steps
    parameters := stepsAt .parameter steps }

namespace Xml

mutual

/-- An element and all elements inside it, in the order of their start tags. -/
def Element.inOrder : Element → List Element
  | .mk name attributes text children =>
      .mk name attributes text children :: elementsInOrder children

/-- Elements and all elements inside them, in the order of their start tags. -/
def elementsInOrder : List Element → List Element
  | [] => []
  | e :: more => e.inOrder ++ elementsInOrder more

end

/-- The names of the elements that stand for entities. -/
def entityNames : List (Text × EntityKind) :=
  [("file".toList, .file), ("class".toList, .type), ("field".toList, .field),
    ("method".toList, .method), ("parameter".toList, .parameter)]

/-- The kind and the name of the entity that an element stands for. -/
def Element.entity? (e : Element) : Option (EntityKind × Text) :=
  (entityNames.lookup e.name).map fun kind => (kind, e.value "name".toList)

/-- The entities of an element and the elements inside it, in document order. -/
def Element.entities (e : Element) : List (EntityKind × Text) := e.inOrder.filterMap Element.entity?

/-! ### Entities of the document -/

theorem elementsInOrder_eq_flatMap (es : List Element) :
    elementsInOrder es = es.flatMap Element.inOrder := by
  induction es with
  | nil => rfl
  | cons e more ih => rw [elementsInOrder, ih, List.flatMap_cons]

theorem entities_mk (name : Text) (attributes : List (Text × Text)) (text : Text)
    (children : List Element) :
    (Element.mk name attributes text children).entities =
      (Element.mk name attributes text children).entity?.toList ++
        children.flatMap Element.entities := by
  rw [Element.entities, Element.inOrder, elementsInOrder_eq_flatMap, List.filterMap_cons,
    List.filterMap_flatMap]
  cases (Element.mk name attributes text children).entity? <;> rfl

/-- An element of another name only holds entities. -/
theorem entities_holder (name : Text) (h : entityNames.lookup name = none)
    (attributes : List (Text × Text)) (children : List Element) :
    (Element.branch name attributes children).entities = children.flatMap Element.entities := by
  have hnone : (Element.mk name attributes [] children).entity? = none := by
    rw [Element.entity?, Element.name, h, Option.map_none]
  rw [Element.branch, entities_mk, hnone, Option.toList_none, List.nil_append]

/-- The element of an entity gives its name before all that it holds. -/
theorem entities_entity {name : Text} {kind : EntityKind} (h : entityNames.lookup name = some kind)
    (title : Text) (attributes : List (Text × Text)) (children : List Element) :
    (Element.branch name (cleaned "name" title :: attributes) children).entities =
      (kind, clean title) :: children.flatMap Element.entities := by
  have hsome : (Element.mk name (cleaned "name" title :: attributes) [] children).entity? =
      some (kind, clean title) := by
    rw [Element.entity?, Element.name, h, Option.map_some]
    rfl
  rw [Element.branch, entities_mk, hsome, Option.toList_some, List.singleton_append]

theorem entities_leaf (name : Text) (h : entityNames.lookup name = none)
    (attributes : List (Text × Text)) (text : Text) :
    (Element.leaf name attributes text).entities = [] := by
  rw [Element.leaf, entities_mk, Element.entity?, Element.name, h]
  rfl

theorem entities_documentationElement (block : Option Block) :
    (documentationElement block).entities = [] := by
  cases block with
  | none => rfl
  | some b =>
      have htags : (b.tags.flatMap fun tag => tag.2.map fun value =>
          Element.leaf "tag".toList [cleaned "name" tag.1] (clean value)).flatMap
            Element.entities = [] := by
        rw [List.flatMap_eq_nil_iff]
        intro e he
        obtain ⟨tag, -, he⟩ := List.mem_flatMap.1 he
        obtain ⟨value, -, rfl⟩ := List.mem_map.1 he
        exact entities_leaf _ rfl _ _
      rw [documentationElement.eq_def, entities_holder _ rfl, List.flatMap_eq_nil_iff]
      refine List.forall_mem_cons.2 ⟨entities_leaf _ rfl _ _, List.forall_mem_cons.2
        ⟨entities_leaf _ rfl _ _, List.forall_mem_singleton.2 ?_⟩⟩
      rw [entities_holder _ rfl, htags]

theorem entities_fieldElement (f : Field) :
    (fieldElement f).entities = [(.field, clean f.name)] := by
  rw [fieldElement, entities_entity rfl, List.flatMap_singleton, entities_documentationElement]

theorem entities_parameterElement (p : Parameter) :
    (parameterElement p).entities = [(.parameter, clean p.name)] := rfl

/-- A step of the walk as the document tells it. -/
def entryOf (s : WalkStep) : EntityKind × Text := (s.entity.kind, clean s.entity.name)

theorem entities_methodElement (m : Method) :
    (methodElement m).entities = (Project.walkMethod m).map entryOf := by
  rw [methodElement, entities_entity rfl, Project.walkMethod, List.map_cons, List.map_map]
  simp only [List.flatMap_cons, List.flatMap_nil, entities_leaf "signature".toList rfl,
    entities_leaf "return".toList rfl, entities_documentationElement,
    entities_holder "parameters".toList rfl, List.flatMap_map, entities_parameterElement,
    List.nil_append, List.append_nil, ← List.map_eq_flatMap]
  rfl

theorem entities_typeElement (c : TypeDecl) :
    (typeElement c).entities = (Project.walkType c).map entryOf := by
  rw [typeElement, entities_entity rfl, Project.walkType, List.map_append, List.map_cons,
    List.map_map, List.map_flatMap]
  simp only [List.flatMap_cons, List.flatMap_nil, entities_documentationElement,
    entities_holder "fields".toList rfl, entities_holder "methods".toList rfl,
    List.flatMap_map, entities_fieldElement, entities_methodElement, List.nil_append,
    List.append_nil, List.cons_append, ← List.map_eq_flatMap]
  rfl

theorem entities_fileElement (f : FileDoc) :
    (fileElement f).entities = (Project.walkFile f).map entryOf := by
  rw [fileElement, entities_entity rfl, List.flatMap_singleton, entities_holder _ rfl,
    Project.walkFile, List.map_cons, List.map_flatMap, List.flatMap_map]
  simp only [entities_typeElement]
  rfl

/-- The document holds the elements of entities in the order of the walk. -/
theorem entities_projectElement (p : Project) :
    (projectElement p).entities = p.walk.map entryOf := by
  rw [projectElement, entities_holder _ rfl, List.flatMap_singleton, entities_holder _ rfl,
    Project.walk, List.map_flatMap, List.flatMap_map]
  simp only [entities_fileElement]

end Xml

/-! ### Entities of the walk -/

theorem flatMap_const_nil {α β : Type} (xs : List α) : xs.flatMap (fun _ => ([] : List β)) = [] :=
  List.flatMap_eq_nil_iff.2 fun _ _ => rfl

/-- What the walk finds of one sort, level by level. -/
theorem filterMap_walk {α : Type} (found? : Entity → Option α) (p : Project) :
    p.walk.filterMap (fun s => found? s.entity) = p.files.flatMap fun f =>
      (found? (.file f)).toList ++ f.classes.flatMap fun c =>
        (found? (.type c)).toList ++ ((c.fields.flatMap fun f => (found? (.field f)).toList) ++
          c.methods.flatMap fun m =>
            (found? (.method m)).toList ++ m.parameters.flatMap fun q =>
              (found? (.parameter q)).toList) := by
  simp only [List.filterMap_eq_flatMap_toList, Project.walk, Project.walkFile, Project.walkType,
    Project.walkMethod, List.flatMap_assoc, List.flatMap_append, List.flatMap_cons,
    List.flatMap_map, List.cons_append]

theorem filterMap_file?_walk (p : Project) :
    p.walk.filterMap (fun s => s.entity.file?) = p.files := by
  rw [filterMap_walk]
  simp [Entity.file?, flatMap_const_nil]

theorem filterMap_type?_walk (p : Project) :
    p.walk.filterMap (fun s => s.entity.type?) = p.classes := by
  rw [filterMap_walk]
  simp [Entity.type?, flatMap_const_nil, Project.classes]

theorem filterMap_field?_walk (p : Project) :
    p.walk.filterMap (fun s => s.entity.field?) = p.classes.flatMap TypeDecl.fields := by
  rw [filterMap_walk]
  simp [Entity.field?, flatMap_const_nil, Project.classes, List.flatMap_assoc]

theorem filterMap_method?_walk (p : Project) :
    p.walk.filterMap (fun s => s.entity.method?) = p.methods := by
  rw [filterMap_walk]
  simp [Entity.method?, flatMap_const_nil, Project.methods, Project.classes, List.flatMap_assoc]

theorem filterMap_parameter?_walk (p : Project) :
    p.walk.filterMap (fun s => s.entity.parameter?) = p.methods.flatMap Method.parameters := by
  rw [filterMap_walk]
  simp [Entity.parameter?, flatMap_const_nil, Project.methods, Project.classes, List.flatMap_assoc]

/-- Steps at entities of a kind are counted by what is found there. -/
theorem stepsAt_eq_length {α : Type} (kind : EntityKind) (found? : Entity → Option α)
    (h : ∀ e, (found? e).isSome = (e.kind == kind)) (steps : List WalkStep) :
    stepsAt kind steps = (steps.filterMap fun s => found? s.entity).length := by
  rw [stepsAt, List.length_filterMap_eq_countP]
  simp only [h]

/-- The walk steps at the entities that are counted. -/
theorem ofSteps_walk (p : Project) : Counts.ofSteps p.walk = p.counts := by
  have hfiles := stepsAt_eq_length .file Entity.file? (fun e => by cases e <;> rfl) p.walk
  have htypes := stepsAt_eq_length .type Entity.type? (fun e => by cases e <;> rfl) p.walk
  have hfields := stepsAt_eq_length .field Entity.field? (fun e => by cases e <;> rfl) p.walk
  have hmethods := stepsAt_eq_length .method Entity.method? (fun e => by cases e <;> rfl) p.walk
  have hparameters :=
    stepsAt_eq_length .parameter Entity.parameter? (fun e => by cases e <;> rfl) p.walk
  rw [Counts.ofSteps, hfiles, htypes, hfields, hmethods, hparameters, filterMap_file?_walk,
    filterMap_type?_walk, filterMap_field?_walk, filterMap_method?_walk,
    filterMap_parameter?_walk, Project.counts]

/-! ### The walk and its counterparts -/

/-- The steps of the walk through a file. -/
theorem mem_walkFile {f : FileDoc} {s : WalkStep} : s ∈ Project.walkFile f ↔
    s = ⟨0, .file f⟩ ∨ ∃ c ∈ f.classes, s = ⟨1, .type c⟩ ∨ (∃ g ∈ c.fields, s = ⟨2, .field g⟩) ∨
      ∃ m ∈ c.methods, s = ⟨2, .method m⟩ ∨ ∃ q ∈ m.parameters, s = ⟨3, .parameter q⟩ := by
  simp only [Project.walkFile, Project.walkType, Project.walkMethod, List.mem_cons,
    List.mem_flatMap, List.mem_append, List.mem_map, or_assoc, eq_comm (b := s)]

theorem depth_eq_level {p : Project} : ∀ s ∈ p.walk, s.depth = s.entity.kind.level := by
  intro s hs
  obtain ⟨f, -, hs⟩ := List.mem_flatMap.1 hs
  obtain rfl | ⟨c, -, rfl | ⟨g, -, rfl⟩ | ⟨m, -, rfl | ⟨q, -, rfl⟩⟩⟩ := mem_walkFile.1 hs <;> rfl

/-- The blocks of a printed document: two of title, and one for each step of the walk. -/
theorem exists_blocks_eq (p : Project) : ∃ first second, Pdf.blocks p =
    first :: second :: p.walk.map fun s => Pdf.blockOf s.depth s.entity := by
  rw [Pdf.blocks]
  split
  · next hempty =>
      have hnone : p.walk = [] := by rw [Project.walk, List.isEmpty_iff.1 hempty, List.flatMap_nil]
      exact ⟨_, _, by rw [hnone, List.map_nil]⟩
  · exact ⟨_, _, rfl⟩

theorem depth_blockOf (depth : Nat) (e : Entity) : (Pdf.blockOf depth e).depth = depth := by
  cases e <;> rfl

/-- What the traversals of a project have in common. -/
structure TraversalsAgree (p : Project) : Prop where
  /-- The walk visits every entity once, and those of a kind in their order. -/
  files : p.walk.filterMap (fun s => s.entity.file?) = p.files
  classes : p.walk.filterMap (fun s => s.entity.type?) = p.files.flatMap FileDoc.classes
  fields : p.walk.filterMap (fun s => s.entity.field?) =
    (p.files.flatMap FileDoc.classes).flatMap TypeDecl.fields
  methods : p.walk.filterMap (fun s => s.entity.method?) =
    (p.files.flatMap FileDoc.classes).flatMap TypeDecl.methods
  parameters : p.walk.filterMap (fun s => s.entity.parameter?) =
    ((p.files.flatMap FileDoc.classes).flatMap TypeDecl.methods).flatMap Method.parameters
  levels : ∀ s ∈ p.walk, s.depth = s.entity.kind.level
  /-- The steps at entities of a kind are as many as the counts say. -/
  counted : Counts.ofSteps p.walk = p.counts
  /-- The document holds the elements of the entities in the order of the walk. -/
  written : (Xml.projectElement p).inOrder.filterMap Xml.Element.entity? =
    p.walk.map fun s => (s.entity.kind, Xml.clean s.entity.name)
  /-- The printed document has two blocks and then one for each step, at its depth. -/
  printed : (Pdf.blocks p).length = 2 + p.walk.length
  depths : ((Pdf.blocks p).drop 2).map Pdf.TextBlock.depth = p.walk.map WalkStep.depth

/-- The walk, the counts, the document and the printed blocks of a project go through the
same entities in the same order. -/
theorem traversals_agree (p : Project) : TraversalsAgree p := by
  obtain ⟨first, second, hblocks⟩ := exists_blocks_eq p
  refine ⟨filterMap_file?_walk p, filterMap_type?_walk p, filterMap_field?_walk p,
    filterMap_method?_walk p, filterMap_parameter?_walk p, depth_eq_level, ofSteps_walk p,
    Xml.entities_projectElement p, ?_, ?_⟩
  · rw [hblocks, List.length_cons, List.length_cons, List.length_map]
    omega
  · rw [hblocks, List.drop_succ_cons, List.drop_succ_cons, List.drop_zero, List.map_map]
    exact List.map_congr_left fun s _ => depth_blockOf s.depth s.entity

end DocPress
