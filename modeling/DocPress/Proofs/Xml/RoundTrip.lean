import DocPress.Model.Description
import DocPress.Proofs.Xml.Document
import DocPress.Xml.Project

/-!
# Projects read back

What a project is after it was written and read: its normal form.  Texts that
are written as attributes lose the characters that a document cannot hold; raw
texts and signatures lose them too and get line feeds for line ends; blocks stay
where they are, and parameters are found again in them.

The main statement says that every project is read back as its normal form, that
the normal form is one (a second trip changes nothing), and that a project which
a document can hold as it is comes back unchanged.
-/

namespace DocPress

open Text Xml

/-! ### The normal form -/

/-- A text that was written between tags and read. -/
def Xml.stored (t : Text) : Text := unifyLineEnds (clean t)

/-- A block that was written and read. -/
def Block.xmlNormal (b : Block) : Block := ⟨stored b.rawText⟩

/-- A field that was written and read. -/
def Field.xmlNormal (f : Field) : Field :=
  { name := clean f.name
    typeText := clean f.typeText
    documentation := f.documentation.map Block.xmlNormal }

/-- A method that was written and read; its parameters are those of its block. -/
def Method.xmlNormal (m : Method) : Method :=
  Method.make (clean m.name) (stored m.signature) (clean m.returnType)
    (m.documentation.map Block.xmlNormal)

/-- A type declaration that was written and read. -/
def TypeDecl.xmlNormal (c : TypeDecl) : TypeDecl :=
  { name := clean c.name
    kind := clean c.kind
    documentation := c.documentation.map Block.xmlNormal
    fields := c.fields.map Field.xmlNormal
    methods := c.methods.map Method.xmlNormal }

/-- A file that was written and read. -/
def FileDoc.xmlNormal (f : FileDoc) : FileDoc :=
  { name := clean f.name
    path := clean f.path
    language := clean f.language
    classes := f.classes.map TypeDecl.xmlNormal }

/-- A project that was written and read. -/
def Project.xmlNormal (p : Project) : Project :=
  ⟨clean p.name, p.files.map FileDoc.xmlNormal⟩

/-! ### Texts that a document holds as they are -/

/-- A text without the characters that a document cannot hold. -/
def Xml.IsWritable (t : Text) : Prop := ∀ c ∈ t, isUnwritable c = false

/-- A text that can also stand between tags unchanged: without carriage returns. -/
def Xml.IsStorable (t : Text) : Prop := IsWritable t ∧ '\r' ∉ t

instance (t : Text) : Decidable (Xml.IsWritable t) := List.decidableBAll _ t

instance (t : Text) : Decidable (Xml.IsStorable t) :=
  inferInstanceAs (Decidable (Xml.IsWritable t ∧ '\r' ∉ t))

/-- A field that a document holds as it is. -/
structure Field.IsStorable (f : Field) : Prop where
  name : IsWritable f.name
  typeText : IsWritable f.typeText
  documentation : ∀ b ∈ f.documentation, Xml.IsStorable b.rawText

/-- A method that a document holds as it is, with the parameters of its block. -/
structure Method.IsStorable (m : Method) : Prop where
  name : IsWritable m.name
  returnType : IsWritable m.returnType
  signature : Xml.IsStorable m.signature
  documentation : ∀ b ∈ m.documentation, Xml.IsStorable b.rawText
  parameters : m.parameters = attachedParameters m.documentation

/-- A type declaration that a document holds as it is. -/
structure TypeDecl.IsStorable (c : TypeDecl) : Prop where
  name : IsWritable c.name
  kind : IsWritable c.kind
  documentation : ∀ b ∈ c.documentation, Xml.IsStorable b.rawText
  fields : ∀ f ∈ c.fields, f.IsStorable
  methods : ∀ m ∈ c.methods, m.IsStorable

/-- A file that a document holds as it is. -/
structure FileDoc.IsStorable (f : FileDoc) : Prop where
  name : IsWritable f.name
  path : IsWritable f.path
  language : IsWritable f.language
  classes : ∀ c ∈ f.classes, c.IsStorable

/-- A project that a document holds as it is. -/
structure Project.IsStorable (p : Project) : Prop where
  name : IsWritable p.name
  files : ∀ f ∈ p.files, f.IsStorable

namespace Xml

theorem clean_of_isWritable {t : Text} (h : IsWritable t) : clean t = t :=
  List.filter_eq_self.2 fun c hc => by simp [h c hc]

theorem isWritable_clean (t : Text) : IsWritable (clean t) := by
  intro c hc
  simpa using (List.mem_filter.1 hc).2

theorem isStorable_stored (t : Text) : IsStorable (stored t) := by
  refine ⟨fun c hc => ?_, return_notMem_unifyLineEnds _⟩
  rcases mem_of_mem_unifyLineEnds hc with hc | rfl
  · exact isWritable_clean t c hc
  · rfl

theorem stored_of_isStorable {t : Text} (h : IsStorable t) : stored t = t := by
  rw [stored, clean_of_isWritable h.1, unifyLineEnds_eq_self h.2]

theorem isDocumentChar_of_mem_clean {t : Text} {c : Char} (h : c ∈ clean t) :
    isDocumentChar c := by
  have hwritable := isWritable_clean t c h
  simp only [isUnwritable, Bool.or_eq_false_iff, Bool.and_eq_false_iff, decide_eq_false_iff_not]
    at hwritable
  simp only [isDocumentChar, Bool.or_eq_true, Bool.and_eq_true, decide_eq_true_eq, bne_iff_ne]
  omega

end Xml

/-! ### The normal form is a fixed point, and the only one of what a document holds -/

theorem Block.map_xmlNormal_eq_self {b : Option Block} (h : ∀ x ∈ b, Xml.IsStorable x.rawText) :
    b.map Block.xmlNormal = b := by
  cases b with
  | none => rfl
  | some b => rw [Option.map_some, Block.xmlNormal, stored_of_isStorable (h b rfl)]

theorem Block.isStorable_map_xmlNormal (b : Option Block) :
    ∀ x ∈ b.map Block.xmlNormal, Xml.IsStorable x.rawText := by
  intro x hx
  obtain ⟨y, -, rfl⟩ := Option.map_eq_some_iff.1 hx
  exact isStorable_stored y.rawText

theorem Field.IsStorable.xmlNormal_eq {f : Field} (h : f.IsStorable) : f.xmlNormal = f := by
  simp only [Field.xmlNormal, clean_of_isWritable h.name, clean_of_isWritable h.typeText,
    Block.map_xmlNormal_eq_self h.documentation]

theorem Method.IsStorable.xmlNormal_eq {m : Method} (h : m.IsStorable) : m.xmlNormal = m := by
  simp only [Method.xmlNormal, Method.make, clean_of_isWritable h.name,
    stored_of_isStorable h.signature, clean_of_isWritable h.returnType,
    Block.map_xmlNormal_eq_self h.documentation, ← h.parameters]

theorem TypeDecl.IsStorable.xmlNormal_eq {c : TypeDecl} (h : c.IsStorable) : c.xmlNormal = c := by
  have hfields : c.fields.map Field.xmlNormal = c.fields :=
    (List.map_congr_left fun f hf => (h.fields f hf).xmlNormal_eq).trans (List.map_id _)
  have hmethods : c.methods.map Method.xmlNormal = c.methods :=
    (List.map_congr_left fun m hm => (h.methods m hm).xmlNormal_eq).trans (List.map_id _)
  simp only [TypeDecl.xmlNormal, clean_of_isWritable h.name, clean_of_isWritable h.kind,
    Block.map_xmlNormal_eq_self h.documentation, hfields, hmethods]

theorem FileDoc.IsStorable.xmlNormal_eq {f : FileDoc} (h : f.IsStorable) : f.xmlNormal = f := by
  have hclasses : f.classes.map TypeDecl.xmlNormal = f.classes :=
    (List.map_congr_left fun c hc => (h.classes c hc).xmlNormal_eq).trans (List.map_id _)
  simp only [FileDoc.xmlNormal, clean_of_isWritable h.name, clean_of_isWritable h.path,
    clean_of_isWritable h.language, hclasses]

theorem Project.IsStorable.xmlNormal_eq {p : Project} (h : p.IsStorable) : p.xmlNormal = p := by
  have hfiles : p.files.map FileDoc.xmlNormal = p.files :=
    (List.map_congr_left fun f hf => (h.files f hf).xmlNormal_eq).trans (List.map_id _)
  simp only [Project.xmlNormal, clean_of_isWritable h.name, hfiles]

theorem Field.isStorable_xmlNormal (f : Field) : f.xmlNormal.IsStorable :=
  ⟨isWritable_clean _, isWritable_clean _, Block.isStorable_map_xmlNormal _⟩

theorem Method.isStorable_xmlNormal (m : Method) : m.xmlNormal.IsStorable :=
  ⟨isWritable_clean _, isWritable_clean _, isStorable_stored _, Block.isStorable_map_xmlNormal _,
    rfl⟩

theorem TypeDecl.isStorable_xmlNormal (c : TypeDecl) : c.xmlNormal.IsStorable := by
  refine ⟨isWritable_clean _, isWritable_clean _, Block.isStorable_map_xmlNormal _, ?_, ?_⟩
  · intro f hf
    obtain ⟨f, -, rfl⟩ := List.mem_map.1 hf
    exact f.isStorable_xmlNormal
  · intro m hm
    obtain ⟨m, -, rfl⟩ := List.mem_map.1 hm
    exact m.isStorable_xmlNormal

theorem FileDoc.isStorable_xmlNormal (f : FileDoc) : f.xmlNormal.IsStorable := by
  refine ⟨isWritable_clean _, isWritable_clean _, isWritable_clean _, fun c hc => ?_⟩
  obtain ⟨c, -, rfl⟩ := List.mem_map.1 hc
  exact c.isStorable_xmlNormal

theorem Project.isStorable_xmlNormal (p : Project) : p.xmlNormal.IsStorable := by
  refine ⟨isWritable_clean _, fun f hf => ?_⟩
  obtain ⟨f, -, rfl⟩ := List.mem_map.1 hf
  exact f.isStorable_xmlNormal

namespace Xml

/-! ### What is written can be read -/

/-- Attributes whose values a document can hold. -/
def HoldsValues (attributes : List (Text × Text)) : Prop :=
  ∀ a ∈ attributes, ∀ c ∈ a.2, isDocumentChar c

theorem holdsValues_nil : HoldsValues [] := by
  simp [HoldsValues]

theorem HoldsValues.cons {attributes : List (Text × Text)} (h : HoldsValues attributes)
    (key : String) (value : Text) : HoldsValues (cleaned key value :: attributes) :=
  List.forall_mem_cons.2 ⟨fun _ hc => isDocumentChar_of_mem_clean hc, h⟩

theorem writable_leaf {name : Text} (hname : isPlainName name) {attributes : List (Text × Text)}
    (hattributes : arePlain attributes) (hvalues : HoldsValues attributes) (text : Text) :
    (Element.leaf name attributes (clean text)).Writable :=
  .leaf hname hattributes hvalues fun _ hc => isDocumentChar_of_mem_clean hc

theorem writable_documentationElement (block : Option Block) :
    (documentationElement block).Writable := by
  refine .branch rfl rfl holdsValues_nil ?_
  cases block with
  | none => simp
  | some b =>
      simp only [List.forall_mem_cons]
      refine ⟨writable_leaf rfl rfl holdsValues_nil _, writable_leaf rfl rfl holdsValues_nil _, ?_,
        by simp⟩
      refine .branch rfl rfl holdsValues_nil fun e he => ?_
      obtain ⟨tag, -, he⟩ := List.mem_flatMap.1 he
      obtain ⟨value, -, rfl⟩ := List.mem_map.1 he
      exact writable_leaf rfl rfl (holdsValues_nil.cons _ _) value

theorem writable_fieldElement (f : Field) : (fieldElement f).Writable := by
  refine .branch rfl rfl ((holdsValues_nil.cons _ _).cons _ _) fun e he => ?_
  obtain rfl := List.mem_singleton.1 he
  exact writable_documentationElement f.documentation

theorem writable_methodElement (m : Method) : (methodElement m).Writable := by
  refine .branch rfl rfl ((holdsValues_nil.cons _ _).cons _ _) ?_
  simp only [List.forall_mem_cons]
  refine ⟨writable_leaf rfl rfl holdsValues_nil _, writable_leaf rfl rfl holdsValues_nil _,
    writable_documentationElement m.documentation, ?_, by simp⟩
  refine .branch rfl rfl holdsValues_nil fun e he => ?_
  obtain ⟨parameter, -, rfl⟩ := List.mem_map.1 he
  exact writable_leaf rfl rfl (holdsValues_nil.cons _ _) _

theorem writable_typeElement (c : TypeDecl) : (typeElement c).Writable := by
  refine .branch rfl rfl ((holdsValues_nil.cons _ _).cons _ _) ?_
  simp only [List.forall_mem_cons]
  refine ⟨writable_documentationElement c.documentation, ?_, ?_, by simp⟩
  · refine .branch rfl rfl holdsValues_nil fun e he => ?_
    obtain ⟨f, -, rfl⟩ := List.mem_map.1 he
    exact writable_fieldElement f
  · refine .branch rfl rfl holdsValues_nil fun e he => ?_
    obtain ⟨m, -, rfl⟩ := List.mem_map.1 he
    exact writable_methodElement m

theorem writable_fileElement (f : FileDoc) : (fileElement f).Writable := by
  refine .branch rfl rfl (((holdsValues_nil.cons _ _).cons _ _).cons _ _) fun e he => ?_
  obtain rfl := List.mem_singleton.1 he
  refine .branch rfl rfl holdsValues_nil fun e he => ?_
  obtain ⟨c, -, rfl⟩ := List.mem_map.1 he
  exact writable_typeElement c

theorem writable_projectElement (p : Project) : (projectElement p).Writable := by
  refine .branch rfl rfl (holdsValues_nil.cons _ _) fun e he => ?_
  obtain rfl := List.mem_singleton.1 he
  refine .branch rfl rfl holdsValues_nil fun e he => ?_
  obtain ⟨f, -, rfl⟩ := List.mem_map.1 he
  exact writable_fileElement f

/-! ### Reading what was written -/

/-- An element as a reader finds it at a depth. -/
def Element.asRead (depth : Nat) (e : Element) : Element := (e.mapText unifyLineEnds).indented depth

theorem asRead_leaf (depth : Nat) (name : Text) (attributes : List (Text × Text)) (text : Text) :
    (Element.leaf name attributes text).asRead depth =
      .leaf name attributes (unifyLineEnds text) := by
  rw [Element.asRead, mapText_leaf, indented_leaf]

@[simp] theorem name_asRead (depth : Nat) (e : Element) : (e.asRead depth).name = e.name := by
  obtain ⟨name, attributes, text, children⟩ := e
  cases children <;>
    simp [Element.asRead, Element.mapText, mapTexts, Element.indented, Element.name]

@[simp] theorem attributes_asRead (depth : Nat) (e : Element) :
    (e.asRead depth).attributes = e.attributes := by
  obtain ⟨name, attributes, text, children⟩ := e
  cases children <;>
    simp [Element.asRead, Element.mapText, mapTexts, Element.indented, Element.attributes]

@[simp] theorem children_asRead (depth : Nat) (e : Element) :
    (e.asRead depth).children = e.children.map (Element.asRead (depth + 1)) := by
  obtain ⟨name, attributes, text, children⟩ := e
  cases children with
  | nil => simp [Element.asRead, Element.mapText, mapTexts, Element.indented, Element.children]
  | cons first others =>
      simp [Element.asRead, Element.mapText, mapTexts_eq_map, Element.indented, indentedAll_eq_map,
        Element.children]

theorem value_asRead (depth : Nat) (e : Element) (key : Text) :
    (e.asRead depth).value key = e.value key := by
  rw [Element.value, attributes_asRead, Element.value]

theorem child?_asRead (depth : Nat) (e : Element) (key : Text) :
    (e.asRead depth).child? key = (e.child? key).map (Element.asRead (depth + 1)) := by
  have hname : (fun c : Element => c.name == key) ∘ Element.asRead (depth + 1) =
      fun c => c.name == key := by
    funext c
    rw [Function.comp_apply, name_asRead]
  rw [Element.child?, children_asRead, List.find?_map, hname, Element.child?]

theorem named_asRead (depth : Nat) (e : Element) (key : Text) :
    (e.asRead depth).named key = (e.named key).map (Element.asRead (depth + 1)) := by
  simp [Element.named, List.filter_map, Function.comp_def]

theorem grandchildren_asRead (depth : Nat) (e : Element) (outer inner : Text) :
    (e.asRead depth).grandchildren outer inner =
      (e.grandchildren outer inner).map (Element.asRead (depth + 2)) := by
  simp [Element.grandchildren, named_asRead, List.flatMap_map, List.map_flatMap]

/-- An element with the element of a block among its children has that block. -/
theorem readBlock?_asRead {e : Element} {block : Option Block} (depth : Nat)
    (h : e.child? "documentation".toList = some (documentationElement block)) :
    readBlock? (e.asRead depth) = block.map Block.xmlNormal := by
  rw [readBlock?, child?_asRead, h]
  cases block with
  | none => rfl
  | some b =>
      have hraw : (documentationElement (some b)).child? "rawText".toList =
          some (.leaf "rawText".toList [] (clean b.rawText)) := rfl
      simp only [Option.map_some, Option.bind_eq_bind, Option.bind_some, child?_asRead, hraw,
        asRead_leaf]
      rfl

theorem readField_asRead (depth : Nat) (f : Field) :
    readField ((fieldElement f).asRead depth) = f.xmlNormal := by
  rw [readField, value_asRead, value_asRead, readBlock?_asRead depth rfl]
  rfl

theorem readMethod_asRead (depth : Nat) (m : Method) :
    readMethod ((methodElement m).asRead depth) = m.xmlNormal := by
  have hsignature : (methodElement m).child? "signature".toList =
      some (.leaf "signature".toList [] (clean m.signature)) := rfl
  rw [readMethod, value_asRead, value_asRead, readBlock?_asRead depth rfl, child?_asRead,
    hsignature, Option.map_some, asRead_leaf]
  rfl

/-- The entities below a list element are those it was written from. -/
theorem map_grandchildren_asRead {α β : Type} {e : Element} {outer inner : Text} {items : List α}
    {read : Element → β} {normal : α → β} (depth : Nat) (write : α → Element)
    (houter : e.named outer = [.branch outer [] (items.map write)])
    (hinner : ∀ a, (write a).name = inner)
    (hread : ∀ a depth, read ((write a).asRead depth) = normal a) :
    ((e.asRead depth).grandchildren outer inner).map read = items.map normal := by
  have hall : (items.map write).filter (fun c => c.name == inner) = items.map write := by
    refine List.filter_eq_self.2 fun c hc => ?_
    obtain ⟨a, -, rfl⟩ := List.mem_map.1 hc
    simp [hinner a]
  have hgrandchildren : e.grandchildren outer inner = items.map write := by
    rw [Element.grandchildren, houter, List.flatMap_singleton]
    exact hall
  rw [grandchildren_asRead, hgrandchildren, List.map_map, List.map_map]
  exact List.map_congr_left fun a _ => hread a _

theorem readType_asRead (depth : Nat) (c : TypeDecl) :
    readType ((typeElement c).asRead depth) = c.xmlNormal := by
  have hfields :
      (((typeElement c).asRead depth).grandchildren "fields".toList "field".toList).map readField =
        c.fields.map Field.xmlNormal :=
    map_grandchildren_asRead depth fieldElement rfl (fun _ => rfl) fun f n => readField_asRead n f
  have hmethods :
      (((typeElement c).asRead depth).grandchildren "methods".toList "method".toList).map
        readMethod = c.methods.map Method.xmlNormal :=
    map_grandchildren_asRead depth methodElement rfl (fun _ => rfl) fun m n => readMethod_asRead n m
  rw [readType, value_asRead, value_asRead, readBlock?_asRead depth rfl, hfields, hmethods]
  rfl

theorem readFile_asRead (depth : Nat) (f : FileDoc) :
    readFile ((fileElement f).asRead depth) = f.xmlNormal := by
  have hclasses :
      (((fileElement f).asRead depth).grandchildren "classes".toList "class".toList).map readType =
        f.classes.map TypeDecl.xmlNormal :=
    map_grandchildren_asRead depth typeElement rfl (fun _ => rfl) fun c n => readType_asRead n c
  rw [readFile, value_asRead, value_asRead, value_asRead, hclasses]
  rfl

theorem readProject_asRead (depth : Nat) (p : Project) :
    readProject ((projectElement p).asRead depth) = p.xmlNormal := by
  have hfiles :
      (((projectElement p).asRead depth).grandchildren "files".toList "file".toList).map readFile =
        p.files.map FileDoc.xmlNormal :=
    map_grandchildren_asRead depth fileElement rfl (fun _ => rfl) fun f n => readFile_asRead n f
  rw [readProject, value_asRead, hfiles]
  rfl

/-- Every project that was written is read. -/
theorem parse_render_eq (p : Project) : parse (render p) = .ok p.xmlNormal := by
  have hread : read? (render p) = some ((projectElement p).asRead 0) :=
    (writable_projectElement p).read?_writeDocument
  have hname : ((projectElement p).asRead 0).name = "project".toList := by
    rw [name_asRead]
    rfl
  rw [parse, hread]
  simp only [hname, if_true, readProject_asRead]

/-- Writing a project and reading it back always succeeds and gives its normal
form; the normal form is kept by a second trip; and a project that a document can
hold as it is comes back with the same tree. -/
theorem parse_render_normal (p : Project) :
    parse (render p) = .ok p.xmlNormal ∧ p.xmlNormal.xmlNormal = p.xmlNormal ∧
      (p.IsStorable → (parse (render p)).map Project.toJson = .ok p.toJson) := by
  refine ⟨parse_render_eq p, p.isStorable_xmlNormal.xmlNormal_eq, fun h => ?_⟩
  rw [parse_render_eq, h.xmlNormal_eq]
  rfl

/-- A project with markup, quotation marks and line ends in its texts comes back
unchanged. -/
theorem parse_render_normal_markup :
    let m := Method.make "get".toList "int get(\"<a>\");".toList "Map<K,\tV>".toList
      (some ⟨"Gets & \"returns\".\n@param k the ]]> key".toList⟩)
    let p : Project := ⟨"a\r\n<b>".toList, [⟨"A.java".toList, "s\tc/A.java".toList, "java".toList,
      [⟨"A".toList, "class".toList, some ⟨[]⟩, [⟨"f".toList, "int".toList, none⟩], [m]⟩]⟩]⟩
    p.IsStorable ∧ (parse (render p)).map Project.toJson = .ok p.toJson := by
  intro m p
  have hm : m.IsStorable := by
    refine ⟨by decide, by decide, by decide, fun b hb => ?_, rfl⟩
    obtain rfl := Option.some.inj hb
    decide
  have hp : p.IsStorable := by
    refine ⟨by decide, fun f hf => ?_⟩
    obtain rfl := List.mem_singleton.1 hf
    refine ⟨by decide, by decide, by decide, fun c hc => ?_⟩
    obtain rfl := List.mem_singleton.1 hc
    refine ⟨by decide, by decide, fun b hb => ?_, fun f hf => ?_, fun m' hm' => ?_⟩
    · obtain rfl := Option.some.inj hb
      decide
    · obtain rfl := List.mem_singleton.1 hf
      exact ⟨by decide, by decide, fun b hb => absurd hb (by simp)⟩
    · obtain rfl := List.mem_singleton.1 hm'
      exact hm
  exact ⟨hp, (parse_render_normal p).2.2 hp⟩

end Xml

end DocPress
