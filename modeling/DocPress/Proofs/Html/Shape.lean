import DocPress.Proofs.Comment.Composition
import DocPress.Proofs.Comment.TagWord
import DocPress.Proofs.Html.Frame
import DocPress.Proofs.Html.PageName

/-!
# Shapes of projects

The shape of a project is what is left of it without its texts: how many entities and
tags there are at each place, where documentation is, and which of the texts that a page
asks for are empty.  The frames of the pages depend on the shape only
(`frame_indexMarkup`, `frame_filePage`), so the frames of a shape are those of the plainest
project that has it (`shapeFrames`).

The main statement is that whatever the texts of a project are, they neither add markup
to its pages nor take any away: projects of one shape have pages of the same frames, and
each shows its own texts in the slots, escaped once.
-/

namespace DocPress.Html

/-! ### Shapes -/

/-- The shape of documentation. -/
structure BlockShape where
  /-- Whether there is a description. -/
  described : Bool
  /-- The number of tag values that no section of their own shows. -/
  tags : Nat
deriving DecidableEq

/-- The shape of a method. -/
structure MethodShape where
  documentation : Option BlockShape
  parameters : Nat
  /-- Whether there is a return type, and a description of the returned value. -/
  typed : Bool
  returnDescribed : Bool
deriving DecidableEq

/-- The shape of a type declaration. -/
structure TypeShape where
  documentation : Option BlockShape
  fields : List (Option BlockShape)
  methods : List MethodShape
deriving DecidableEq

/-- The shape of documentation that may be missing. -/
def blockShape (block : Option Block) : Option BlockShape :=
  block.map fun b => ⟨!b.description.isEmpty, b.otherTags.length⟩

def methodShape (m : Method) : MethodShape :=
  { documentation := blockShape m.documentation
    parameters := m.parameters.length
    typed := !m.returnType.isEmpty
    returnDescribed := !(m.returnDescription?.getD []).isEmpty }

def typeShape (c : TypeDecl) : TypeShape :=
  { documentation := blockShape c.documentation
    fields := c.fields.map fun f => blockShape f.documentation
    methods := c.methods.map methodShape }

/-- The shapes of the declarations of a file. -/
def fileShape (f : FileDoc) : List TypeShape := f.classes.map typeShape

/-- The shape of a project, file by file. -/
def projectShape (p : Project) : List (List TypeShape) := p.files.map fileShape

/-! ### The plainest project of a shape -/

/-- One character where there has to be a text. -/
def plainText (shown : Bool) : Text := if shown then ['x'] else []

/-- The tags of documentation: as many that no section of their own shows as there have to
be, and the one for the returned value. -/
def plainTags (tags : Nat) (returned : Bool) : List (Text × Text) :=
  List.replicate tags (['x'], []) ++ if returned then [(Block.returnTag, ['x'])] else []

/-- Documentation of a shape. -/
def plainBlock (shape : BlockShape) (returned : Bool) : Block :=
  ⟨Text.join ['\n'] (Comment.partTexts (plainText shape.described)
    ((plainTags shape.tags returned).map fun p => '@' :: (p.1 ++ ' ' :: p.2)))⟩

def plainMethod (shape : MethodShape) : Method :=
  { name := []
    signature := []
    returnType := plainText shape.typed
    documentation := shape.documentation.map fun block => plainBlock block shape.returnDescribed
    parameters := List.replicate shape.parameters ⟨[], []⟩ }

def plainType (shape : TypeShape) : TypeDecl :=
  { name := []
    kind := []
    documentation := shape.documentation.map fun block => plainBlock block false
    fields := shape.fields.map fun field => ⟨[], [], field.map fun block => plainBlock block false⟩
    methods := shape.methods.map plainMethod }

/-- The plainest project of a shape. -/
def plainProject (shape : List (List TypeShape)) : Project :=
  ⟨[], shape.map fun types => ⟨[], [], [], types.map plainType⟩⟩

/-- The pages of a project before they are written as text. -/
def pageMarkups (p : Project) : List Markup :=
  indexMarkup p :: (p.files.filter fun f => !f.classes.isEmpty).map (filePage p)

/-- The frames of the pages of all projects of a shape. -/
def shapeFrames (shape : List (List TypeShape)) : List Frame :=
  (pageMarkups (plainProject shape)).map Markup.frame

theorem isEmpty_plainText (shown : Bool) : (plainText shown).isEmpty = !shown := by
  cases shown <;> rfl

theorem parse_plainBlock (shape : BlockShape) (returned : Bool) :
    Comment.parse (plainBlock shape returned).rawText =
      ⟨plainText shape.described, Comment.Tags.ofPairs (plainTags shape.tags returned)⟩ := by
  have htag : ∀ p ∈ plainTags shape.tags returned,
      p = (['x'], []) ∨ p = (Block.returnTag, ['x']) := by
    intro p hp
    rcases List.mem_append.1 hp with hlisted | hreturned
    · exact .inl (List.eq_of_mem_replicate hlisted)
    · cases returned
      · cases hreturned
      · exact .inr (List.mem_singleton.1 hreturned)
  have hnames : ∀ p ∈ plainTags shape.tags returned, Text.IsName p.1 := fun p hp => by
    rcases htag p hp with rfl | rfl <;> decide
  have hvalues : ∀ p ∈ plainTags shape.tags returned, Comment.IsPart p.2 := fun p hp => by
    rcases htag p hp with rfl | rfl <;> decide
  have hstars : ∀ x ∈ (plainTags shape.tags returned).map fun p => '@' :: (p.1 ++ ' ' :: p.2),
      '*' ∉ x := List.forall_mem_map.2 fun p hp => by
    rcases htag p hp with rfl | rfl <;> decide
  have htexts : List.Forall₂ Comment.IsTagText (plainTags shape.tags returned)
      ((plainTags shape.tags returned).map fun p => '@' :: (p.1 ++ ' ' :: p.2)) :=
    List.forall₂_map_right_iff.2 (List.forall₂_same.2 fun p _ => .valued p.1 p.2)
  rw [Comment.Tags.ofPairs_eq_grouped]
  refine (Comment.isComposed_of_notMem ?_ hnames hvalues htexts ?_).parse_eq
  · cases shape.described <;> decide
  · cases shape.described
    · exact hstars
    · exact List.forall_mem_cons.2 ⟨by decide, hstars⟩

theorem blockShape_plainBlock (shape : BlockShape) (returned : Bool) :
    blockShape (some (plainBlock shape returned)) = some shape := by
  have hdescription : (plainBlock shape returned).description = plainText shape.described := by
    rw [Block.description, parse_plainBlock]
  have hother : (plainBlock shape returned).otherTags.length = shape.tags := by
    have hperm := (Comment.Tags.pairs_ofPairs (plainTags shape.tags returned)).filter
      fun p => !(p.1 == Block.paramTag || p.1 == Block.returnTag)
    have hlisted : ((plainTags shape.tags returned).filter
        fun p => !(p.1 == Block.paramTag || p.1 == Block.returnTag)) =
        List.replicate shape.tags (['x'], []) := by
      rw [plainTags, List.filter_append, List.filter_replicate_of_pos (by decide)]
      cases returned <;> simp
    rw [Block.otherTags, Block.tags, parse_plainBlock,
      Comment.Tags.pairs_filter _ fun name => !(name == Block.paramTag || name == Block.returnTag),
      hperm.length_eq, hlisted, List.length_replicate]
  rw [blockShape, Option.map_some, hdescription, hother, isEmpty_plainText, Bool.not_not]

theorem blockShape_map_plainBlock (shape : Option BlockShape) (returned : Bool) :
    blockShape (shape.map fun block => plainBlock block returned) = shape := by
  cases shape with
  | none => rfl
  | some shape => exact blockShape_plainBlock shape returned

theorem returnValue?_plainBlock (shape : BlockShape) (returned : Bool) :
    (plainBlock shape returned).returnValue? = if returned then some ['x'] else none := by
  have hnone :
      Comment.Tags.valuesOf (List.replicate shape.tags (['x'], [])) Block.returnTag = [] := by
    rw [Comment.Tags.valuesOf, List.filter_replicate_of_neg (by decide), List.map_nil]
  rw [Block.returnValue?, Block.firstTagValue?, Block.tagValues, Block.tags, parse_plainBlock,
    Comment.Tags.values_ofPairs, plainTags]
  cases returned <;> simp [Comment.Tags.valuesOf_append, hnone]

/-- A shape is that of its plain method, unless it wants what is returned described without
documentation, which the shape of no method does. -/
theorem methodShape_plainMethod {shape : MethodShape}
    (h : shape.documentation = none → shape.returnDescribed = false) :
    methodShape (plainMethod shape) = shape := by
  obtain ⟨documentation, parameters, typed, described⟩ := shape
  have hdocumentation := blockShape_map_plainBlock documentation described
  have hreturned : (!(((documentation.map fun block => plainBlock block described).bind
      Block.returnValue?).getD []).isEmpty) = described := by
    cases documentation with
    | none => exact (h rfl).symm
    | some block =>
        rw [Option.map_some, Option.bind_some, returnValue?_plainBlock]
        cases described <;> rfl
  rw [methodShape, Method.returnDescription?, plainMethod, hreturned]
  simp only [hdocumentation, List.length_replicate, isEmpty_plainText, Bool.not_not]

theorem returnDescribed_methodShape {m : Method} (h : (methodShape m).documentation = none) :
    (methodShape m).returnDescribed = false := by
  have hnone : m.documentation = none := Option.map_eq_none_iff.1 h
  simp [methodShape, Method.returnDescription?, hnone]

theorem typeShape_plainType (c : TypeDecl) : typeShape (plainType (typeShape c)) = typeShape c := by
  have hmethods : ∀ m ∈ c.methods, methodShape (plainMethod (methodShape m)) = methodShape m :=
    fun m _ => methodShape_plainMethod returnDescribed_methodShape
  simpa [typeShape, plainType, blockShape_map_plainBlock] using hmethods

/-- The shape of a project is that of the plainest project of this shape. -/
theorem projectShape_plainProject (p : Project) :
    projectShape (plainProject (projectShape p)) = projectShape p := by
  rw [projectShape, plainProject, projectShape, List.map_map, List.map_map]
  refine List.map_congr_left fun f _ => ?_
  change ((f.classes.map typeShape).map plainType).map typeShape = f.classes.map typeShape
  rw [List.map_map, List.map_map]
  exact List.map_congr_left fun c _ => typeShape_plainType c

/-! ### Texts of pages -/

/-- The texts of documentation: the description, and names and values of tags. -/
def blockTexts : Option Block → List Text
  | none => []
  | some b =>
      (if b.description = [] then [] else [b.description]) ++
        b.otherTags.flatMap fun tag => [tag.1, tag.2]

/-- The texts of a row of the table of fields. -/
def fieldTexts (f : Field) : List Text := f.typeText :: f.name :: blockTexts f.documentation

/-- The texts about the returned value. -/
def returnTexts (m : Method) : List Text :=
  let description := m.returnDescription?.getD []
  if m.returnType = [] ∧ description = [] then []
  else m.returnType :: if description = [] then [] else [description]

/-- The texts of the article of a method. -/
def methodTexts (owner : Text) (m : Method) : List Text :=
  [owner, m.name, m.name, m.signature] ++ blockTexts m.documentation ++
    (m.parameters.flatMap fun q => [q.name, q.description]) ++ returnTexts m

/-- The texts of the section of a declaration. -/
def typeTexts (c : TypeDecl) : List Text :=
  [c.name, c.kind, c.kind, c.name] ++ blockTexts c.documentation ++ c.fields.flatMap fieldTexts ++
    c.methods.flatMap (methodTexts c.name)

/-- The texts of the page of a file. -/
def fileTexts (p : Project) (f : FileDoc) : List Text :=
  [f.name, p.name, stylesheetPath, p.name, f.path, f.name, f.path, f.language] ++
    f.classes.flatMap typeTexts

/-- The texts of a row of the table of files. -/
def rowTexts (f : FileDoc) (page : Option Text) : List Text :=
  page.toList ++ [f.path, f.language] ++ f.classes.flatMap fun c => [c.kind, c.kind, c.name]

/-- The texts of the index. -/
def indexTexts (p : Project) : List Text :=
  [p.name, stylesheetPath, p.name, Text.ofNat p.counts.files, Text.ofNat p.counts.classes,
    Text.ofNat p.counts.fields, Text.ofNat p.counts.methods] ++
    (p.files.zip (pageNames p.files)).flatMap fun entry => rowTexts entry.1 entry.2

/-- The texts of all pages, page by page. -/
def pageTexts (p : Project) : List (List Text) :=
  indexTexts p :: (p.files.filter fun f => !f.classes.isEmpty).map (fileTexts p)

theorem texts_documentation (block : Option Block) :
    (documentation block).texts = blockTexts block := by
  cases block with
  | none => rfl
  | some b =>
      rw [documentation, blockTexts, Markup.texts_append, Markup.texts_flatMap]
      cases b.description <;> rfl

theorem texts_fieldRow (f : Field) : (fieldRow f).texts = fieldTexts f := by
  simp [fieldRow, fieldTexts, texts_documentation]

theorem texts_fieldTable (fields : List Field) :
    (fieldTable fields).texts = fields.flatMap fieldTexts := by
  cases fields with
  | nil => rfl
  | cons f fields =>
      simp only [fieldTable, List.isEmpty_cons, Bool.false_eq_true, if_false, Markup.texts_append,
        Markup.texts_flatMap, Markup.texts_fixed, Markup.texts_nil, texts_fieldRow,
        List.nil_append, List.append_nil]

theorem texts_parameterList (parameters : List Parameter) :
    (parameterList parameters).texts = parameters.flatMap fun q => [q.name, q.description] := by
  cases parameters with
  | nil => rfl
  | cons q parameters =>
      simp only [parameterList, List.isEmpty_cons, Bool.false_eq_true, if_false,
        Markup.texts_append, Markup.texts_flatMap, Markup.texts_fixed, Markup.texts_text,
        Markup.texts_nil, List.nil_append, List.append_nil]

theorem texts_returnPart (m : Method) : (returnPart m).texts = returnTexts m := by
  rw [returnPart, returnTexts]
  cases m.returnType <;> cases m.returnDescription?.getD [] <;> rfl

theorem texts_methodArticle (owner : Text) (m : Method) :
    (methodArticle owner m).texts = methodTexts owner m := by
  simp [methodArticle, methodTexts, texts_documentation, texts_parameterList, texts_returnPart]

theorem texts_methodList (owner : Text) (methods : List Method) :
    (methodList owner methods).texts = methods.flatMap (methodTexts owner) := by
  cases methods with
  | nil => rfl
  | cons m methods =>
      simp only [methodList, List.isEmpty_cons, Bool.false_eq_true, if_false, Markup.texts_fixed,
        Markup.texts_flatMap, texts_methodArticle]

theorem texts_typeSection (c : TypeDecl) : (typeSection c).texts = typeTexts c := by
  simp [typeSection, kindBadge, typeTexts, texts_documentation, texts_fieldTable,
    texts_methodList]

theorem texts_filePage (p : Project) (f : FileDoc) : (filePage p f).texts = fileTexts p f := by
  simp [filePage, pageHead, pageFoot, fileTexts, texts_typeSection, Markup.texts_flatMap]

theorem texts_typeList (cs : List TypeDecl) :
    (typeList cs).texts = cs.flatMap fun c => [c.kind, c.kind, c.name] := by
  induction cs with
  | nil => rfl
  | cons c cs ih => simp [typeList, kindBadge, ih]

theorem texts_fileRow (f : FileDoc) (page : Option Text) :
    (fileRow f page).texts = rowTexts f page := by
  cases page <;> simp [fileRow, rowTexts, texts_typeList]

theorem texts_indexMarkup (p : Project) : (indexMarkup p).texts = indexTexts p := by
  have htable : (fileTable p).texts =
      (p.files.zip (pageNames p.files)).flatMap fun entry => rowTexts entry.1 entry.2 := by
    rw [fileTable]
    split
    · next hempty => simp [List.isEmpty_iff.1 hempty]
    · simp [Markup.texts_flatMap, texts_fileRow]
  simp [indexMarkup, pageHead, pageFoot, indexTexts, htable]

/-! ### Frames of pages -/

/-- What depends on the shapes of items only is the same for lists of the same shapes. -/
theorem map_eq_of_map_eq {α β γ σ : Type} {s : α → σ} {t : β → σ} {f : α → γ} {g : β → γ}
    (hfg : ∀ a b, s a = t b → f a = g b) {as : List α} {bs : List β} (h : as.map s = bs.map t) :
    as.map f = bs.map g := by
  induction as generalizing bs with
  | nil =>
      obtain rfl := List.map_eq_nil_iff.1 h.symm
      rfl
  | cons a as ih =>
      obtain ⟨b, rest, rfl, hb, hrest⟩ := List.map_eq_cons_iff.1 h.symm
      rw [List.map_cons, List.map_cons, hfg a b hb.symm, ih hrest.symm]

theorem flatMap_eq_of_map_eq {α β γ σ : Type} {s : α → σ} {t : β → σ} {f : α → List γ}
    {g : β → List γ} (hfg : ∀ a b, s a = t b → f a = g b) {as : List α} {bs : List β}
    (h : as.map s = bs.map t) : as.flatMap f = bs.flatMap g := by
  rw [List.flatMap_def, List.flatMap_def, map_eq_of_map_eq hfg h]

theorem isEmpty_eq_of_map_eq {α β σ : Type} {s : α → σ} {t : β → σ} {as : List α} {bs : List β}
    (h : as.map s = bs.map t) : as.isEmpty = bs.isEmpty := by
  simpa using congrArg List.isEmpty h

theorem isEmpty_eq_of_length_eq {α β : Type} {as : List α} {bs : List β}
    (h : as.length = bs.length) : as.isEmpty = bs.isEmpty := by
  cases as <;> cases bs <;> simp_all

theorem flatMap_eq_of_length_eq {α β γ : Type} {as : List α} {bs : List β}
    (h : as.length = bs.length) (x : List γ) :
    as.flatMap (fun _ => x) = bs.flatMap fun _ => x := by
  refine flatMap_eq_of_map_eq (s := fun _ => ()) (t := fun _ => ()) (fun _ _ _ => rfl) ?_
  rw [List.map_const', List.map_const', h]

theorem frame_documentation {a b : Option Block} (h : blockShape a = blockShape b) :
    (documentation a).frame = (documentation b).frame := by
  cases a with
  | none =>
      cases b with
      | none => rfl
      | some b => cases h
  | some a =>
      cases b with
      | none => cases h
      | some b =>
          obtain ⟨hdescribed, htags⟩ := BlockShape.mk.inj (Option.some.inj h)
          simp only [documentation, Markup.frame_append, Markup.frame_flatMap, Markup.frame_fixed,
            Markup.frame_text, Markup.frame_nil]
          rw [flatMap_eq_of_length_eq htags]
          congr 1
          cases ha : a.description <;> cases hb : b.description <;> simp_all

theorem frame_fieldRow {f g : Field}
    (h : blockShape f.documentation = blockShape g.documentation) :
    (fieldRow f).frame = (fieldRow g).frame := by
  simp only [fieldRow, Markup.frame_append, Markup.frame_fixed, Markup.frame_text,
    frame_documentation h]

theorem frame_fieldTable {fs gs : List Field}
    (h : (fs.map fun f => blockShape f.documentation) =
      gs.map fun f => blockShape f.documentation) :
    (fieldTable fs).frame = (fieldTable gs).frame := by
  have hrows := flatMap_eq_of_map_eq (fun f g => frame_fieldRow (f := f) (g := g)) h
  rw [fieldTable, fieldTable, isEmpty_eq_of_map_eq h]
  split
  · rfl
  · simp only [Markup.frame_append, Markup.frame_flatMap, hrows]

theorem frame_parameterList {ps qs : List Parameter} (h : ps.length = qs.length) :
    (parameterList ps).frame = (parameterList qs).frame := by
  rw [parameterList, parameterList, isEmpty_eq_of_length_eq h]
  split
  · rfl
  · simp only [Markup.frame_append, Markup.frame_flatMap, Markup.frame_fixed, Markup.frame_text,
      Markup.frame_nil, flatMap_eq_of_length_eq h]

theorem frame_returnPart {m n : Method} (htype : m.returnType.isEmpty = n.returnType.isEmpty)
    (hdescription : (m.returnDescription?.getD []).isEmpty =
      (n.returnDescription?.getD []).isEmpty) :
    (returnPart m).frame = (returnPart n).frame := by
  simp only [returnPart, htype, hdescription]
  split
  · rfl
  · split <;> rfl

theorem frame_methodArticle {m n : Method} (h : methodShape m = methodShape n)
    (owner other : Text) : (methodArticle owner m).frame = (methodArticle other n).frame := by
  obtain ⟨hdocumentation, hparameters, htype, hdescription⟩ := MethodShape.mk.inj h
  simp only [methodArticle, Markup.frame_append, Markup.frame_fixed, Markup.frame_text,
    frame_documentation hdocumentation, frame_parameterList hparameters,
    frame_returnPart (Bool.not_inj htype) (Bool.not_inj hdescription)]

theorem frame_methodList {ms ns : List Method} (h : ms.map methodShape = ns.map methodShape)
    (owner other : Text) : (methodList owner ms).frame = (methodList other ns).frame := by
  have harticles := flatMap_eq_of_map_eq (f := fun m => (methodArticle owner m).frame)
    (g := fun m => (methodArticle other m).frame)
    (fun m n hmn => frame_methodArticle hmn owner other) h
  rw [methodList, methodList, isEmpty_eq_of_map_eq h]
  split
  · rfl
  · simp only [Markup.frame_fixed, Markup.frame_flatMap, harticles]

theorem frame_typeSection {c d : TypeDecl} (h : typeShape c = typeShape d) :
    (typeSection c).frame = (typeSection d).frame := by
  obtain ⟨hdocumentation, hfields, hmethods⟩ := TypeShape.mk.inj h
  simp only [typeSection, kindBadge, Markup.frame_append, Markup.frame_fixed, Markup.frame_text,
    frame_documentation hdocumentation, frame_fieldTable hfields,
    frame_methodList hmethods c.name d.name]

theorem frame_filePage {f g : FileDoc} (h : fileShape f = fileShape g) (p q : Project) :
    (filePage p f).frame = (filePage q g).frame := by
  have hsections := flatMap_eq_of_map_eq (fun c d => frame_typeSection (c := c) (d := d)) h
  simp only [filePage, pageHead, Markup.frame_append, Markup.frame_fixed, Markup.frame_text,
    Markup.frame_flatMap, hsections]

theorem frame_typeList {cs ds : List TypeDecl} (h : cs.length = ds.length) :
    (typeList cs).frame = (typeList ds).frame := by
  induction cs generalizing ds with
  | nil =>
      obtain rfl := List.length_eq_zero_iff.1 h.symm
      rfl
  | cons c cs ih =>
      obtain ⟨d, ds, rfl⟩ := List.exists_cons_of_length_eq_add_one h.symm
      have hlength : cs.length = ds.length := by simpa using h
      simp only [typeList, kindBadge, List.cons_append, Markup.frame_fixed, Markup.frame_text,
        Markup.frame_append, ih hlength, isEmpty_eq_of_length_eq hlength]

theorem frame_fileRow {f g : FileDoc} (h : fileShape f = fileShape g) {page other : Option Text}
    (hpage : page.isSome = other.isSome) : (fileRow f page).frame = (fileRow g other).frame := by
  have hlength : f.classes.length = g.classes.length := by
    simpa [fileShape] using congrArg List.length h
  cases page with
  | none =>
      cases other with
      | none =>
          simp only [fileRow, Markup.frame_append, Markup.frame_fixed, Markup.frame_text,
            frame_typeList hlength]
      | some _ => cases hpage
  | some name =>
      cases other with
      | none => cases hpage
      | some _ =>
          simp only [fileRow, Markup.frame_append, Markup.frame_fixed, Markup.frame_text,
            frame_typeList hlength]

/-- The rows of the index, each told by the shape of its file and whether it has a page. -/
theorem map_rows {files : List FileDoc} {names : List (Option Text)}
    (h : List.Forall₂ (fun f name => name = none ↔ f.classes = []) files names) :
    ((files.zip names).map fun entry => (fileShape entry.1, entry.2.isSome)) =
      (files.map fileShape).map fun shape => (shape, !shape.isEmpty) := by
  induction h with
  | nil => rfl
  | @cons f name files names hname _ ih =>
      have hsome : name.isSome = !(fileShape f).isEmpty := by
        rw [fileShape, List.isEmpty_map]
        cases name <;> cases hclasses : f.classes <;> simp_all
      rw [List.zip_cons_cons, List.map_cons, List.map_cons, List.map_cons, ih, hsome]

theorem frame_fileTable {p q : Project} (h : projectShape p = projectShape q) :
    (fileTable p).frame = (fileTable q).frame := by
  have hrows : ((p.files.zip (pageNames p.files)).map fun entry =>
      (fileShape entry.1, entry.2.isSome)) =
      (q.files.zip (pageNames q.files)).map fun entry => (fileShape entry.1, entry.2.isSome) := by
    rw [map_rows (isNaming_pageNames p.files).aligned,
      map_rows (isNaming_pageNames q.files).aligned]
    exact congrArg _ h
  have htable := flatMap_eq_of_map_eq
    (f := fun entry : FileDoc × Option Text => (fileRow entry.1 entry.2).frame)
    (g := fun entry : FileDoc × Option Text => (fileRow entry.1 entry.2).frame)
    (fun a b hab => frame_fileRow (Prod.mk.inj hab).1 (Prod.mk.inj hab).2) hrows
  rw [fileTable, fileTable, isEmpty_eq_of_map_eq h]
  split
  · rfl
  · simp only [Markup.frame_append, Markup.frame_flatMap, htable]

theorem frame_indexMarkup {p q : Project} (h : projectShape p = projectShape q) :
    (indexMarkup p).frame = (indexMarkup q).frame := by
  simp only [indexMarkup, pageHead, Markup.frame_append, Markup.frame_fixed, Markup.frame_text,
    frame_fileTable h]

/-! ### Pages of projects of one shape -/

theorem map_snd_renderPages (p : Project) :
    (renderPages p).map Prod.snd = (pageMarkups p).map Markup.render := by
  rw [(isPageSet_renderPages p).contents, pageMarkups, List.map_cons, List.map_map]
  rfl

theorem map_texts_pageMarkups (p : Project) : (pageMarkups p).map Markup.texts = pageTexts p := by
  rw [pageMarkups, pageTexts, List.map_cons, List.map_map, texts_indexMarkup]
  congr 1
  exact List.map_congr_left fun f _ => texts_filePage p f

theorem map_frame_pageMarkups {p q : Project} (h : projectShape p = projectShape q) :
    (pageMarkups p).map Markup.frame = (pageMarkups q).map Markup.frame := by
  have hfilter (files : List FileDoc) : (files.filter fun f => !f.classes.isEmpty).map fileShape =
      (files.map fileShape).filter fun shape => !shape.isEmpty := by
    rw [List.filter_map]
    simp [Function.comp_def, fileShape]
  have hpages := map_eq_of_map_eq (fun f g hfg => frame_filePage hfg p q)
    ((hfilter p.files).trans ((congrArg (List.filter _) h).trans (hfilter q.files).symm))
  rw [pageMarkups, pageMarkups, List.map_cons, List.map_cons, List.map_map, List.map_map,
    frame_indexMarkup h]
  exact congrArg _ hpages

theorem shapeFrames_projectShape (p : Project) :
    shapeFrames (projectShape p) = (pageMarkups p).map Markup.frame :=
  map_frame_pageMarkups (projectShape_plainProject p)

/-- Pages that are frames with a text in every slot, escaped once. -/
structure ShowsTexts (frames : List Frame) (texts : List (List Text)) (pages : List Text) :
    Prop where
  /-- Every slot has its text. -/
  slots : frames.map Frame.slots = texts.map List.length
  filled : pages =
    List.zipWith (fun frame texts => Frame.fill frame (texts.map escape)) frames texts

theorem showsTexts_renderPages (p : Project) :
    ShowsTexts (shapeFrames (projectShape p)) (pageTexts p) ((renderPages p).map Prod.snd) := by
  rw [shapeFrames_projectShape]
  constructor
  · rw [← map_texts_pageMarkups, List.map_map, List.map_map]
    exact List.map_congr_left fun m _ => m.slots_frame
  · rw [← map_texts_pageMarkups, map_snd_renderPages, List.zipWith_map, List.zipWith_self]
    exact List.map_congr_left fun m _ => m.render_eq_fill

/-- All markup of the pages is in the frames of the shape. -/
theorem map_marks_renderPages (p : Project) : ((renderPages p).map fun page => marks page.2) =
    (shapeFrames (projectShape p)).map fun frame => marks frame.reduceOption.flatten := by
  have hrendered := congrArg (List.map marks) (map_snd_renderPages p)
  rw [List.map_map, List.map_map] at hrendered
  rw [shapeFrames_projectShape, List.map_map]
  exact hrendered.trans (List.map_congr_left fun m _ => m.marks_render)

/-- The pages of projects of one shape have the same markup, whatever the texts are: they
are the same frames, filled with the texts of each project in their order.  A text fills
its slot in a form without markup from which it is read back. -/
theorem pages_of_shape :
    (∀ p q, projectShape p = projectShape q →
      ((renderPages p).map fun page => marks page.2) =
        (renderPages q).map fun page => marks page.2) ∧
      (∃ frames : List (List TypeShape) → List Frame, ∀ p,
        ShowsTexts (frames (projectShape p)) (pageTexts p) ((renderPages p).map Prod.snd)) ∧
      ∀ t, unescape (escape t) = t ∧ marks (escape t) = [] := by
  refine ⟨fun p q h => ?_, ⟨shapeFrames, showsTexts_renderPages⟩,
    fun t => ⟨unescape_escape t, marks_escape t⟩⟩
  rw [map_marks_renderPages, map_marks_renderPages, h]

/-- A project of one method, with texts to choose. -/
def oneMethod (name kind comment : Text) : Project :=
  ⟨name, [⟨name, name, kind, [⟨name, kind, some ⟨comment⟩, [⟨name, kind, none⟩],
    [Method.make name kind kind (some ⟨comment⟩)]⟩]⟩]⟩

/-- Texts of nothing but markup add none to the pages. -/
theorem pages_of_shape_marked :
    let plain := oneMethod "Box".toList "class".toList
      "A box.\n@param a one\n@return two\n@see this".toList
    let marked := oneMethod "\"><script>".toList "'<'".toList
      "</div>\n@param <a> '>\n@return <td>\n@see \"<&amp;>\"".toList
    projectShape plain = projectShape marked ∧
      ((renderPages plain).map fun page => marks page.2) =
        (renderPages marked).map fun page => marks page.2 := by
  intro plain marked
  have hshape : projectShape plain = projectShape marked := by decide +kernel
  exact ⟨hshape, pages_of_shape.1 plain marked hshape⟩

end DocPress.Html
