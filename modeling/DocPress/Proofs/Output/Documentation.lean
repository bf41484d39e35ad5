import DocPress.Proofs.Comment.TagWord
import DocPress.Proofs.Html.Shape
import DocPress.Proofs.Model.Traversal
import DocPress.Proofs.Text.Words
import DocPress.Proofs.Xml.Counts

/-!
# Documentation in pages and in print

A block of documentation is shown in the page of its file and in the printed document.
A tag value needs a place there: parameters have one below a method only, a returned
value has one in the article of a method only, and there just the first; in print it has
one everywhere.  All other tags are listed below the description.

The main statement says what is shown and that nothing else is: pages and printed blocks
are the same for projects that differ in tag values without a place.
-/

namespace DocPress

open Html Text

/-! ### Places for tag values -/

/-- The documentation of an entity. -/
def Entity.documentation? : Entity → Option Block
  | .file _ => none
  | .type c => c.documentation
  | .field f => f.documentation
  | .method m => m.documentation
  | .parameter _ => none

/-- The parameters below an entity. -/
def Entity.parameters : Entity → List Parameter
  | .method m => m.parameters
  | _ => []

/-- The texts that stand for a tag value: a parameter is told by name and description. -/
def tagTexts (tag : Text × Text) : List Text :=
  if tag.1 = Block.paramTag then
    [(Parameter.ofValue tag.2).name, (Parameter.ofValue tag.2).description]
  else [tag.2]

/-- Tag values of a block that have a place in the page of the file of an entity. -/
def Entity.ListsTag (e : Entity) (b : Block) (tag : Text × Text) : Prop :=
  if tag.1 = Block.paramTag then Parameter.ofValue tag.2 ∈ e.parameters
  else tag.1 = Block.returnTag → e.kind = .method ∧ b.returnValue? = some tag.2

/-- Tag values that have a place in print. -/
def Entity.PrintsTag (e : Entity) (tag : Text × Text) : Prop :=
  tag.1 = Block.paramTag → Parameter.ofValue tag.2 ∈ e.parameters

/-! ### Shown in pages -/

/-- The texts about an entity that tell of its documentation. -/
def Entity.shownTexts : Entity → List Text
  | .type c => blockTexts c.documentation
  | .field f => blockTexts f.documentation
  | .method m =>
      blockTexts m.documentation ++ (m.parameters.flatMap fun q => [q.name, q.description]) ++
        returnTexts m
  | _ => []

/-- The page of a file shows the documentation of all entities of the file. -/
theorem mem_fileTexts {p : Project} {f : FileDoc} {s : WalkStep} (hs : s ∈ Project.walkFile f)
    {t : Text} (ht : t ∈ s.entity.shownTexts) : t ∈ fileTexts p f := by
  have htype : ∀ c ∈ f.classes, t ∈ typeTexts c → t ∈ fileTexts p f := fun c hc hmem =>
    List.mem_append_right _ (List.mem_flatMap.2 ⟨c, hc, hmem⟩)
  -- one case for each kind of entity; a file and a parameter show no documentation
  obtain rfl | ⟨c, hc, rfl | ⟨g, hg, rfl⟩ | ⟨m, hm, rfl | ⟨q, -, rfl⟩⟩⟩ := mem_walkFile.1 hs
  · cases ht
  · apply htype c hc
    simp only [Entity.shownTexts] at ht
    simp only [typeTexts, List.mem_append]
    exact .inl (.inl (.inr ht))
  · apply htype c hc
    simp only [Entity.shownTexts] at ht
    have hfield : t ∈ fieldTexts g := List.mem_cons_of_mem _ (List.mem_cons_of_mem _ ht)
    simp only [typeTexts, List.mem_append]
    exact .inl (.inr (List.mem_flatMap.2 ⟨g, hg, hfield⟩))
  · apply htype c hc
    simp only [Entity.shownTexts, List.append_assoc] at ht
    have hmethod : t ∈ methodTexts c.name m := by
      simp only [methodTexts, List.append_assoc]
      exact List.mem_append_right _ ht
    simp only [typeTexts, List.mem_append]
    exact .inr (List.mem_flatMap.2 ⟨m, hm, hmethod⟩)
  · cases ht

theorem escape_infix_filePage {p : Project} {f : FileDoc} {s : WalkStep}
    (hs : s ∈ Project.walkFile f) {t : Text} (ht : t = [] ∨ t ∈ s.entity.shownTexts) :
    escape t <:+: (filePage p f).render := by
  rcases ht with rfl | ht
  · exact List.nil_infix
  · apply Markup.escape_infix_render
    rw [texts_filePage]
    exact mem_fileTexts hs ht

theorem blockTexts_subset_shownTexts {e : Entity} {b : Block} (h : e.documentation? = some b) :
    blockTexts (some b) ⊆ e.shownTexts := by
  cases e with
  | file f => cases h
  | type c => rw [← h]; exact fun _ => id
  | field f => rw [← h]; exact fun _ => id
  | method m =>
      rw [← h]
      exact fun t ht => List.mem_append_left _ (List.mem_append_left _ ht)
  | parameter q => cases h

theorem Comment.Tags.mem_pairs {tags : Comment.Tags} {tag : Text × Text} :
    tag ∈ tags.pairs ↔ ∃ entry ∈ tags, entry.1 = tag.1 ∧ tag.2 ∈ entry.2 := by
  rw [Comment.Tags.pairs, List.mem_flatMap]
  constructor
  · rintro ⟨entry, hentry, htag⟩
    obtain ⟨value, hvalue, rfl⟩ := List.mem_map.1 htag
    exact ⟨entry, hentry, rfl, hvalue⟩
  · rintro ⟨entry, hentry, hname, hvalue⟩
    exact ⟨entry, hentry, List.mem_map.2 ⟨tag.2, hvalue, Prod.ext hname rfl⟩⟩

/-- Every tag but two is listed. -/
theorem mem_otherTags {b : Block} {tag : Text × Text} (h : tag ∈ b.tags.pairs)
    (hparam : tag.1 ≠ Block.paramTag) (hreturn : tag.1 ≠ Block.returnTag) : tag ∈ b.otherTags := by
  obtain ⟨entry, hentry, hname, hvalue⟩ := Comment.Tags.mem_pairs.1 h
  refine Comment.Tags.mem_pairs.2 ⟨entry, List.mem_filter.2 ⟨hentry, ?_⟩, hname, hvalue⟩
  rw [hname]
  simp [hparam, hreturn]

theorem description_shown {e : Entity} {b : Block} (h : e.documentation? = some b) :
    b.description = [] ∨ b.description ∈ e.shownTexts := by
  by_cases hempty : b.description = []
  · exact .inl hempty
  · refine .inr (blockTexts_subset_shownTexts h (List.mem_append_left _ ?_))
    rw [if_neg hempty]
    exact List.mem_singleton_self _

/-- A tag value with a place in the page is shown there. -/
theorem tagTexts_shown {e : Entity} {b : Block} (h : e.documentation? = some b)
    {tag : Text × Text} (htag : tag ∈ b.tags.pairs) (hlists : e.ListsTag b tag) :
    ∀ t ∈ tagTexts tag, t = [] ∨ t ∈ e.shownTexts := by
  intro t ht
  rw [Entity.ListsTag] at hlists
  rw [tagTexts] at ht
  by_cases hparam : tag.1 = Block.paramTag
  · rw [if_pos hparam] at hlists ht
    -- only a method has parameters
    cases e with
    | method m =>
        have hmem : t ∈ m.parameters.flatMap fun q => [q.name, q.description] :=
          List.mem_flatMap.2 ⟨_, hlists, ht⟩
        exact .inr (List.mem_append_left _ (List.mem_append_right _ hmem))
    | file f => cases hlists
    | type c => cases hlists
    | field f => cases hlists
    | parameter q => cases hlists
  · rw [if_neg hparam] at hlists ht
    obtain rfl := List.mem_singleton.1 ht
    by_cases hreturn : tag.1 = Block.returnTag
    · obtain ⟨hkind, hvalue⟩ := hlists hreturn
      cases e with
      | method m =>
          by_cases hempty : tag.2 = []
          · exact .inl hempty
          · -- the value is the one that the method gives as its own
            have hdescription : m.returnDescription? = some tag.2 := by
              rw [Method.returnDescription?, show m.documentation = some b from h]
              exact hvalue
            have hmem : tag.2 ∈ returnTexts m := by
              simp [returnTexts, hdescription, hempty]
            exact .inr (List.mem_append_right _ hmem)
      | file f => cases hkind
      | type c => cases hkind
      | field f => cases hkind
      | parameter q => cases hkind
    · have hlisted : tag.2 ∈ b.otherTags.flatMap fun tag => [tag.1, tag.2] :=
        List.mem_flatMap.2 ⟨tag, mem_otherTags htag hparam hreturn, by simp⟩
      exact .inr (blockTexts_subset_shownTexts h (List.mem_append_right _ hlisted))

/-! ### Shown in print -/

theorem words_documentationText (b : Block) : words (Pdf.documentationText (some b)) =
    (Pdf.documentationLines b).flatMap words := words_join _

theorem words_infix_flatMap {ls : List Text} {line : Text} (h : line ∈ ls) :
    words line <:+: ls.flatMap words := by
  obtain ⟨before, after, rfl⟩ := List.append_of_mem h
  rw [List.flatMap_append, List.flatMap_cons]
  exact ⟨before.flatMap words, after.flatMap words, by simp only [List.append_assoc]⟩

theorem description_infix_documentationText (b : Block) :
    words b.description <:+: words (Pdf.documentationText (some b)) := by
  rw [words_documentationText]
  by_cases hempty : b.description = []
  · rw [hempty]
    exact List.nil_infix
  · apply words_infix_flatMap
    rw [Pdf.documentationLines, if_neg (by simpa using hempty)]
    exact List.mem_append_left _ (List.mem_singleton_self _)

theorem tag_infix_documentationText {b : Block} {tag : Text × Text} (h : tag ∈ b.tags.pairs)
    (hparam : tag.1 ≠ Block.paramTag) :
    words tag.2 <:+: words (Pdf.documentationText (some b)) := by
  obtain ⟨entry, hentry, hname, hvalue⟩ := Comment.Tags.mem_pairs.1 h
  have hline : trimRight ('@' :: tag.1 ++ ' ' :: tag.2) ∈ Pdf.documentationLines b := by
    refine List.mem_append_right _ (List.mem_flatMap.2 ⟨entry, hentry, ?_⟩)
    rw [hname, if_neg hparam]
    exact List.mem_map.2 ⟨tag.2, hvalue, rfl⟩
  have hwords : words (trimRight ('@' :: tag.1 ++ ' ' :: tag.2)) =
      words ('@' :: tag.1) ++ words tag.2 := by
    rw [words_trimRight, words_append_blank (by decide)]
  rw [words_documentationText]
  refine List.IsInfix.trans ?_ (words_infix_flatMap hline)
  rw [hwords]
  exact (List.suffix_append _ _).isInfix

/-- The text of documentation stands in the block of its entity. -/
theorem documentationText_infix_blockOf {e : Entity} {b : Block} (h : e.documentation? = some b)
    (depth : Nat) :
    words (Pdf.documentationText (some b)) <:+: words (Pdf.blockOf depth e).text := by
  cases e with
  | file f => cases h
  | type c => rw [← h]; exact List.infix_rfl
  | field f => rw [← h]; exact List.infix_rfl
  | method m =>
      have hm : m.documentation = some b := h
      rw [← hm]
      show _ <:+: words (join ['\n']
        ([m.signature, Pdf.documentationText m.documentation].filter _))
      rw [words_join]
      by_cases hempty : Pdf.documentationText m.documentation = []
      · rw [hempty]
        exact List.nil_infix
      · apply words_infix_flatMap
        simp [hempty]
  | parameter q => cases h

/-- Where the words of a text stand together in a block. -/
def ShownInBlock (t : Text) (block : Pdf.TextBlock) : Prop :=
  words t <:+: words block.label ∨ words t <:+: words block.text

theorem mem_blocks {p : Project} {s : WalkStep} (h : s ∈ p.walk) :
    Pdf.blockOf s.depth s.entity ∈ Pdf.blocks p := by
  obtain ⟨first, second, hblocks⟩ := exists_blocks_eq p
  rw [hblocks]
  exact List.mem_cons_of_mem _ (List.mem_cons_of_mem _ (List.mem_map.2 ⟨s, h, rfl⟩))

/-- The parameters below an entity are visited. -/
theorem mem_walk_parameter {p : Project} {s : WalkStep} (hs : s ∈ p.walk) {q : Parameter}
    (hq : q ∈ s.entity.parameters) : (⟨3, .parameter q⟩ : WalkStep) ∈ p.walk := by
  obtain ⟨f, hf, hs⟩ := List.mem_flatMap.1 hs
  refine List.mem_flatMap.2 ⟨f, hf, mem_walkFile.2 ?_⟩
  obtain rfl | ⟨c, hc, rfl | ⟨g, -, rfl⟩ | ⟨m, hm, rfl | ⟨q, -, rfl⟩⟩⟩ := mem_walkFile.1 hs
  · cases hq
  · cases hq
  · cases hq
  · exact .inr ⟨c, hc, .inr (.inr ⟨m, hm, .inr ⟨q, hq, rfl⟩⟩)⟩
  · cases hq

/-- A tag value with a place in print is shown there. -/
theorem tagTexts_printed {p : Project} {s : WalkStep} (hs : s ∈ p.walk) {b : Block}
    (h : s.entity.documentation? = some b) {tag : Text × Text} (htag : tag ∈ b.tags.pairs)
    (hprints : s.entity.PrintsTag tag) :
    ∀ t ∈ tagTexts tag, ∃ block ∈ Pdf.blocks p, ShownInBlock t block := by
  intro t ht
  rw [tagTexts] at ht
  by_cases hparam : tag.1 = Block.paramTag
  · rw [if_pos hparam] at ht
    have hblock := mem_blocks (mem_walk_parameter hs (hprints hparam))
    refine ⟨_, hblock, ?_⟩
    simp only [List.mem_cons, List.not_mem_nil, or_false] at ht
    rcases ht with rfl | rfl
    · left
      show _ <:+: words ("Parameter:".toList ++ ' ' :: (Parameter.ofValue tag.2).name)
      rw [words_append_blank (by decide)]
      exact (List.suffix_append _ _).isInfix
    · right
      exact List.infix_rfl
  · rw [if_neg hparam] at ht
    obtain rfl := List.mem_singleton.1 ht
    exact ⟨_, mem_blocks hs, .inr ((tag_infix_documentationText htag hparam).trans
      (documentationText_infix_blockOf h s.depth))⟩

/-! ### What is seen of a project -/

/-- A field with what is seen of its documentation. -/
structure SeenField (σ : Type) where
  name : Text
  typeText : Text
  documentation : Option σ
deriving DecidableEq

/-- A method with what is seen of its documentation. -/
structure SeenMethod (τ : Type) where
  name : Text
  signature : Text
  returnType : Text
  parameters : List Parameter
  documentation : Option τ
deriving DecidableEq

/-- A declaration with what is seen of its documentation and of that of its members. -/
structure SeenType (σ τ : Type) where
  name : Text
  kind : Text
  documentation : Option σ
  fields : List (SeenField σ)
  methods : List (SeenMethod τ)
deriving DecidableEq

/-- A file with what is seen of the documentation in it. -/
structure SeenFile (σ τ : Type) where
  name : Text
  path : Text
  language : Text
  classes : List (SeenType σ τ)
deriving DecidableEq

/-- A project with what is seen of its documentation. -/
structure SeenProject (σ τ : Type) where
  name : Text
  files : List (SeenFile σ τ)
deriving DecidableEq

section Seen

variable {σ τ : Type} (see : Block → σ) (seeMethod : Block → τ)

def Field.seen (f : Field) : SeenField σ := ⟨f.name, f.typeText, f.documentation.map see⟩

def Method.seen (m : Method) : SeenMethod τ :=
  ⟨m.name, m.signature, m.returnType, m.parameters, m.documentation.map seeMethod⟩

def TypeDecl.seen (c : TypeDecl) : SeenType σ τ :=
  ⟨c.name, c.kind, c.documentation.map see, c.fields.map (Field.seen see),
    c.methods.map (Method.seen seeMethod)⟩

def FileDoc.seen (f : FileDoc) : SeenFile σ τ :=
  ⟨f.name, f.path, f.language, f.classes.map (TypeDecl.seen see seeMethod)⟩

/-- The project for readers who see the given parts of blocks, one part of the blocks of
methods and one of all others. -/
def Project.seen (p : Project) : SeenProject σ τ :=
  ⟨p.name, p.files.map (FileDoc.seen see seeMethod)⟩

variable {see seeMethod}

/-- Where the same is seen there is as much of everything. -/
theorem Project.counts_eq_of_seen_eq {p q : Project}
    (h : p.seen see seeMethod = q.seen see seeMethod) : p.counts = q.counts := by
  obtain ⟨-, hfiles⟩ := SeenProject.mk.inj h
  have hclasses : p.classes.map (TypeDecl.seen see seeMethod) =
      q.classes.map (TypeDecl.seen see seeMethod) := by
    rw [Project.classes, Project.classes, List.map_flatMap, List.map_flatMap]
    exact flatMap_eq_of_map_eq (fun f g hfg => (SeenFile.mk.inj hfg).2.2.2) hfiles
  have hfields : (p.classes.flatMap TypeDecl.fields).map (Field.seen see) =
      (q.classes.flatMap TypeDecl.fields).map (Field.seen see) := by
    rw [List.map_flatMap, List.map_flatMap]
    exact flatMap_eq_of_map_eq (fun c d hcd => (SeenType.mk.inj hcd).2.2.2.1) hclasses
  have hmethods : p.methods.map (Method.seen seeMethod) =
      q.methods.map (Method.seen seeMethod) := by
    rw [Project.methods, Project.methods, List.map_flatMap, List.map_flatMap]
    exact flatMap_eq_of_map_eq (fun c d hcd => (SeenType.mk.inj hcd).2.2.2.2) hclasses
  have hparameters : p.methods.flatMap Method.parameters = q.methods.flatMap Method.parameters :=
    flatMap_eq_of_map_eq (fun m n hmn => (SeenMethod.mk.inj hmn).2.2.2.1) hmethods
  have hlength {α β : Type} {f : α → β} {xs ys : List α} (hmap : xs.map f = ys.map f) :
      xs.length = ys.length := by
    simpa using congrArg List.length hmap
  rw [Project.counts, Project.counts, hlength hfiles, hlength hclasses, hlength hfields,
    hlength hmethods, hparameters]

end Seen

/-- What a page shows of a block that is not a method's: the description, and the tags
that have no section of their own. -/
def Block.listed (b : Block) : Text × List (Text × Text) := (b.description, b.otherTags)

/-- What a page shows of a block of a method: also the first value of one tag. -/
def Block.listedForMethod (b : Block) : Text × List (Text × Text) × Option Text :=
  (b.description, b.otherTags, b.returnValue?)

/-- What is printed of a block: the description, and all tags but one. -/
def Block.printed (b : Block) : Text × Comment.Tags :=
  (b.description, b.tags.filter fun entry => entry.1 ≠ paramTag)

namespace Html

theorem documentation_eq {a b : Option Block} (h : a.map Block.listed = b.map Block.listed) :
    documentation a = documentation b := by
  cases a with
  | none =>
      cases b with
      | none => rfl
      | some b => cases h
  | some a =>
      cases b with
      | none => cases h
      | some b =>
          obtain ⟨hdescription, htags⟩ := Prod.mk.inj (Option.some.inj h)
          rw [documentation, documentation, hdescription, htags]

theorem fieldRow_eq {f g : Field} (h : f.seen Block.listed = g.seen Block.listed) :
    fieldRow f = fieldRow g := by
  obtain ⟨hname, htype, hdocumentation⟩ := SeenField.mk.inj h
  rw [fieldRow, fieldRow, hname, htype, documentation_eq hdocumentation]

theorem methodArticle_eq {m n : Method}
    (h : m.seen Block.listedForMethod = n.seen Block.listedForMethod) (owner : Text) :
    methodArticle owner m = methodArticle owner n := by
  obtain ⟨hname, hsignature, htype, hparameters, hseen⟩ := SeenMethod.mk.inj h
  have hdocumentation : m.documentation.map Block.listed = n.documentation.map Block.listed := by
    have hlisted := congrArg (Option.map fun seen => (seen.1, seen.2.1)) hseen
    rwa [Option.map_map, Option.map_map] at hlisted
  have hreturn : m.returnDescription? = n.returnDescription? := by
    have hvalue := congrArg (Option.bind · fun seen => seen.2.2) hseen
    simp only [Option.bind_map] at hvalue
    exact hvalue
  simp only [methodArticle, returnPart, hname, hsignature, htype, hparameters, hreturn,
    documentation_eq hdocumentation]

theorem typeSection_eq {c d : TypeDecl} (h : c.seen Block.listed Block.listedForMethod =
    d.seen Block.listed Block.listedForMethod) : typeSection c = typeSection d := by
  obtain ⟨hname, hkind, hdocumentation, hfields, hmethods⟩ := SeenType.mk.inj h
  have htable : fieldTable c.fields = fieldTable d.fields := by
    rw [fieldTable, fieldTable, isEmpty_eq_of_map_eq hfields,
      flatMap_eq_of_map_eq (fun f g => fieldRow_eq) hfields]
  have hlist : methodList d.name c.methods = methodList d.name d.methods := by
    rw [methodList, methodList, isEmpty_eq_of_map_eq hmethods,
      flatMap_eq_of_map_eq (fun m n hmn => methodArticle_eq hmn d.name) hmethods]
  rw [typeSection, typeSection, hname, hkind, documentation_eq hdocumentation, htable, hlist]

theorem filePage_eq {p q : Project} (hname : p.name = q.name) {f g : FileDoc}
    (h : f.seen Block.listed Block.listedForMethod = g.seen Block.listed Block.listedForMethod) :
    filePage p f = filePage q g := by
  obtain ⟨hfile, hpath, hlanguage, hclasses⟩ := SeenFile.mk.inj h
  rw [filePage, filePage, hname, hfile, hpath, hlanguage,
    flatMap_eq_of_map_eq (fun c d => typeSection_eq) hclasses]

/-- The list of declarations is told by their kinds and names. -/
theorem typeList_eq {cs ds : List TypeDecl}
    (h : (cs.map fun c => (c.kind, c.name)) = ds.map fun d => (d.kind, d.name)) :
    typeList cs = typeList ds := by
  induction cs generalizing ds with
  | nil =>
      obtain rfl := List.map_eq_nil_iff.1 h.symm
      rfl
  | cons c cs ih =>
      obtain ⟨d, rest, rfl, hd, hrest⟩ := List.map_eq_cons_iff.1 h.symm
      obtain ⟨hkind, hname⟩ := Prod.mk.inj hd
      rw [typeList, typeList, hkind, hname, isEmpty_eq_of_map_eq hrest, ih hrest.symm]

theorem fileRow_eq {f g : FileDoc} (h : f.seen Block.listed Block.listedForMethod =
    g.seen Block.listed Block.listedForMethod) (page : Option Text) :
    fileRow f page = fileRow g page := by
  obtain ⟨-, hpath, hlanguage, hclasses⟩ := SeenFile.mk.inj h
  have hkinds : (f.classes.map fun c => (c.kind, c.name)) =
      g.classes.map fun c => (c.kind, c.name) := by
    refine map_eq_of_map_eq (fun c d hcd => ?_) hclasses
    obtain ⟨hname, hkind, -⟩ := SeenType.mk.inj hcd
    rw [hname, hkind]
  rw [fileRow.eq_def, fileRow.eq_def, hpath, hlanguage, typeList_eq hkinds]

/-- Projects of which a page shows the same have the same pages. -/
theorem renderPages_eq {p q : Project} (h : p.seen Block.listed Block.listedForMethod =
    q.seen Block.listed Block.listedForMethod) : renderPages p = renderPages q := by
  obtain ⟨hname, hfiles⟩ := SeenProject.mk.inj h
  have hnames : pageNames p.files = pageNames q.files := by
    rw [pageNames, pageNames]
    refine congrArg assignNames (map_eq_of_map_eq (fun f g hfg => ?_) hfiles)
    obtain ⟨-, hpath, -, hclasses⟩ := SeenFile.mk.inj hfg
    rw [hpath, isEmpty_eq_of_map_eq hclasses]
  -- files with their pages, of which the pages are the same
  have hentries : (p.files.zip (pageNames p.files)).map
      (Prod.map (FileDoc.seen Block.listed Block.listedForMethod) id) =
      (q.files.zip (pageNames q.files)).map
        (Prod.map (FileDoc.seen Block.listed Block.listedForMethod) id) := by
    rw [← List.zip_map, ← List.zip_map, hfiles, hnames]
  have hindex : indexMarkup p = indexMarkup q := by
    have hrows := flatMap_eq_of_map_eq
      (f := fun entry : FileDoc × Option Text => fileRow entry.1 entry.2)
      (g := fun entry : FileDoc × Option Text => fileRow entry.1 entry.2)
      (fun a b hab => by
        obtain ⟨hfile, hpage⟩ := Prod.mk.inj hab
        rw [show a.2 = b.2 from hpage, fileRow_eq hfile]) hentries
    have htable : fileTable p = fileTable q := by
      rw [fileTable, fileTable, isEmpty_eq_of_map_eq hfiles, hrows]
    rw [indexMarkup, indexMarkup, hname, Project.counts_eq_of_seen_eq h, htable]
  have hpages : filePages p = filePages q := by
    rw [filePages, filePages, List.filterMap_eq_flatMap_toList, List.filterMap_eq_flatMap_toList]
    refine flatMap_eq_of_map_eq (fun a b hab => ?_) hentries
    obtain ⟨hfile, hpage⟩ := Prod.mk.inj hab
    rw [show a.2 = b.2 from hpage, filePage_eq hname hfile]
  rw [renderPages, renderPages, pages, pages, hindex, hpages]

end Html

namespace Pdf

theorem documentationLines_eq (b : Block) : documentationLines b =
    (if b.printed.1.isEmpty then [] else [b.printed.1]) ++ b.printed.2.flatMap fun tag =>
      tag.2.map fun value => trimRight ('@' :: tag.1 ++ ' ' :: value) := by
  have hfilter (tags : Comment.Tags) (line : Text × List Text → List Text) :
      (tags.flatMap fun tag => if tag.1 = Block.paramTag then [] else line tag) =
        (tags.filter fun tag => tag.1 ≠ Block.paramTag).flatMap line := by
    induction tags with
    | nil => rfl
    | cons tag tags ih =>
        rw [List.flatMap_cons, ih]
        by_cases hparam : tag.1 = Block.paramTag
        · rw [if_pos hparam, List.filter_cons_of_neg (by simpa using hparam), List.nil_append]
        · rw [if_neg hparam, List.filter_cons_of_pos (by simpa using hparam), List.flatMap_cons]
  rw [documentationLines, hfilter, Block.printed]

theorem documentationText_eq {a b : Option Block} (h : a.map Block.printed = b.map Block.printed) :
    documentationText a = documentationText b := by
  cases a with
  | none =>
      cases b with
      | none => rfl
      | some b => cases h
  | some a =>
      cases b with
      | none => cases h
      | some b =>
          rw [documentationText, documentationText, documentationLines_eq, documentationLines_eq,
            Option.some.inj h]

theorem blockOf_field_eq {f g : Field} (h : f.seen Block.printed = g.seen Block.printed)
    (depth : Nat) : blockOf depth (.field f) = blockOf depth (.field g) := by
  obtain ⟨hname, htype, hdocumentation⟩ := SeenField.mk.inj h
  unfold blockOf
  simp only [hname, htype, documentationText_eq hdocumentation]

/-- The blocks of some steps. -/
def blocksOf (steps : List WalkStep) : List TextBlock :=
  steps.map fun s => blockOf s.depth s.entity

theorem blocksOf_walkMethod_eq {m n : Method} (h : m.seen Block.printed = n.seen Block.printed) :
    blocksOf (Project.walkMethod m) = blocksOf (Project.walkMethod n) := by
  obtain ⟨hname, hsignature, -, hparameters, hdocumentation⟩ := SeenMethod.mk.inj h
  rw [blocksOf, blocksOf, Project.walkMethod, Project.walkMethod, List.map_cons, List.map_cons,
    hparameters]
  congr 1
  unfold blockOf
  simp only [hname, hsignature, documentationText_eq hdocumentation]

theorem blocksOf_walkType_eq {c d : TypeDecl}
    (h : c.seen Block.printed Block.printed = d.seen Block.printed Block.printed) :
    blocksOf (Project.walkType c) = blocksOf (Project.walkType d) := by
  obtain ⟨hname, hkind, hdocumentation, hfields, hmethods⟩ := SeenType.mk.inj h
  have hfieldBlocks := map_eq_of_map_eq (fun f g hfg => blockOf_field_eq hfg 2) hfields
  have hmethodBlocks := flatMap_eq_of_map_eq (fun m n => blocksOf_walkMethod_eq) hmethods
  have hown : blockOf 1 (.type c) = blockOf 1 (.type d) := by
    unfold blockOf
    simp only [hname, hkind, documentationText_eq hdocumentation]
  have hsplit (c : TypeDecl) : blocksOf (Project.walkType c) = blockOf 1 (.type c) ::
      ((c.fields.map fun f => blockOf 2 (.field f)) ++
        c.methods.flatMap fun m => blocksOf (Project.walkMethod m)) := by
    simp only [blocksOf, Project.walkType, List.cons_append, List.map_cons, List.map_append,
      List.map_map, List.map_flatMap, Function.comp_def]
  rw [hsplit, hsplit, hown, hfieldBlocks, hmethodBlocks]

/-- Projects of which the same is printed have the same blocks. -/
theorem blocks_eq {p q : Project} (h : p.seen Block.printed Block.printed =
    q.seen Block.printed Block.printed) : blocks p = blocks q := by
  obtain ⟨hname, hfiles⟩ := SeenProject.mk.inj h
  have hfile {f g : FileDoc} (hfg : f.seen Block.printed Block.printed =
      g.seen Block.printed Block.printed) :
      blocksOf (Project.walkFile f) = blocksOf (Project.walkFile g) := by
    obtain ⟨-, hpath, hlanguage, hclasses⟩ := SeenFile.mk.inj hfg
    have htypes := flatMap_eq_of_map_eq (fun c d => blocksOf_walkType_eq) hclasses
    have hown : blockOf 0 (.file f) = blockOf 0 (.file g) := by
      unfold blockOf
      simp only [hpath, hlanguage]
    have hsplit (f : FileDoc) : blocksOf (Project.walkFile f) = blockOf 0 (.file f) ::
        f.classes.flatMap fun c => blocksOf (Project.walkType c) := by
      simp only [blocksOf, Project.walkFile, List.map_cons, List.map_flatMap]
    rw [hsplit, hsplit, hown, htypes]
  have hwalk : (p.walk.map fun s => blockOf s.depth s.entity) =
      q.walk.map fun s => blockOf s.depth s.entity := by
    rw [Project.walk, Project.walk, List.map_flatMap, List.map_flatMap]
    exact flatMap_eq_of_map_eq (fun f g => hfile) hfiles
  have hlength : p.files.length = q.files.length := by
    simpa using congrArg List.length hfiles
  unfold blocks titleBlock
  rw [isEmpty_eq_of_map_eq hfiles, hname, hlength, hwalk]

end Pdf

/-! ### What is shown, and what is not -/

/-- The documentation that is found in the pages and in print. -/
structure ShowsDocumentation (p : Project) : Prop where
  /-- The page of a file shows the descriptions in it and all tag values with a place. -/
  paged : ∀ (i : Nat) f s b, p.files[i]? = some f → s ∈ Project.walkFile f →
    s.entity.documentation? = some b → ∃ name page, (pageNames p.files)[i]? = some (some name) ∧
      (renderPages p).lookup name = some page ∧ escape b.description <:+: page ∧
      ∀ tag ∈ b.tags.pairs, s.entity.ListsTag b tag → ∀ t ∈ tagTexts tag, escape t <:+: page
  /-- So do the printed blocks. -/
  printed : ∀ s b, s ∈ p.walk → s.entity.documentation? = some b →
    (∃ block ∈ Pdf.blocks p, ShownInBlock b.description block) ∧
      ∀ tag ∈ b.tags.pairs, s.entity.PrintsTag tag → ∀ t ∈ tagTexts tag,
        ∃ block ∈ Pdf.blocks p, ShownInBlock t block

/-- A file with declarations has a page. -/
theorem exists_page {p : Project} {i : Nat} {f : FileDoc} (hfile : p.files[i]? = some f)
    (hclasses : f.classes ≠ []) : ∃ name, (pageNames p.files)[i]? = some (some name) ∧
      (renderPages p).lookup name = some (filePage p f).render := by
  obtain ⟨hlength, haligned⟩ := List.forall₂_iff_zip.1 (isNaming_pageNames p.files).aligned
  obtain ⟨hi, -⟩ := List.getElem?_eq_some_iff.1 hfile
  obtain ⟨page, hpage⟩ : ∃ page, (pageNames p.files)[i]? = some page :=
    ⟨_, List.getElem?_eq_getElem (hlength ▸ hi)⟩
  have hnone := haligned (List.mem_of_getElem? (List.getElem?_zip_eq_some.2 ⟨hfile, hpage⟩))
  cases page with
  | none => exact absurd (hnone.1 rfl) hclasses
  | some name => exact ⟨name, hpage, lookup_renderPages hfile hpage⟩

theorem showsDocumentation (p : Project) : ShowsDocumentation p := by
  constructor
  · intro i f s b hfile hs hb
    have hclasses : f.classes ≠ [] := by
      -- without declarations there is the file alone, which has no documentation
      intro hempty
      rw [Project.walkFile, hempty, List.flatMap_nil, List.mem_singleton] at hs
      rw [hs] at hb
      cases hb
    obtain ⟨name, hname, hlookup⟩ := exists_page hfile hclasses
    refine ⟨name, _, hname, hlookup, escape_infix_filePage hs (description_shown hb), ?_⟩
    intro tag htag hlists t ht
    exact escape_infix_filePage hs (tagTexts_shown hb htag hlists t ht)
  · intro s b hs hb
    refine ⟨⟨_, mem_blocks hs, .inr ((description_infix_documentationText b).trans
      (documentationText_infix_blockOf hb s.depth))⟩, ?_⟩
    intro tag htag hprints
    exact tagTexts_printed hs hb htag hprints

/-- The values of a tag are those that are recorded with its name. -/
theorem mem_tagValues {b : Block} {tag : Text × Text} (h : tag ∈ b.tags.pairs) :
    tag.2 ∈ b.tagValues tag.1 := by
  have hmarked := (Comment.Tags.pairs_ofPairs _).mem_iff.1 h
  rw [Block.tagValues, Block.tags, Comment.parse, Comment.Tags.values_ofPairs]
  exact List.mem_map.2 ⟨tag, List.mem_filter.2 ⟨hmarked, beq_self_eq_true _⟩, rfl⟩

/-- Every parameter that the block of a method describes has a place below the method. -/
theorem printsTag_of_attached {m : Method} (h : m.parameters = attachedParameters m.documentation)
    {b : Block} (hb : m.documentation = some b) {tag : Text × Text} (htag : tag ∈ b.tags.pairs) :
    (Entity.method m).PrintsTag tag := by
  intro hparam
  show Parameter.ofValue tag.2 ∈ m.parameters
  rw [h, hb]
  have hvalue := mem_tagValues htag
  rw [hparam] at hvalue
  exact List.mem_map.2 ⟨tag.2, hvalue, rfl⟩

/-- What is shown of documentation, and what is not.  Every description is in the page of
its file and in print, and so is every tag value that has a place there; in print this is
every value in a block of a method.  Beyond that nothing is shown: the pages are the same
whatever parameters and returned values the blocks of declarations and fields have and
whatever returned values but the first the blocks of methods have, and the printed blocks
are the same whatever parameters the blocks of declarations and fields have. -/
theorem documentation_shown (p : Project) :
    ShowsDocumentation p ∧
      (p.IsAttached → ∀ m ∈ p.methods, ∀ b, m.documentation = some b →
        ∀ tag ∈ b.tags.pairs, (Entity.method m).PrintsTag tag) ∧
      (∀ q : Project, p.seen Block.listed Block.listedForMethod =
        q.seen Block.listed Block.listedForMethod → renderPages p = renderPages q) ∧
      ∀ q : Project, p.seen Block.printed Block.printed = q.seen Block.printed Block.printed →
        Pdf.blocks p = Pdf.blocks q :=
  ⟨showsDocumentation p, fun h m hm _ hb _ => printsTag_of_attached (h m hm) hb,
    fun _ => renderPages_eq, fun _ => Pdf.blocks_eq⟩

/-- A project of a declaration and a method in it, with comments to choose. -/
def boxProject (ofType ofMethod : Text) : Project :=
  ⟨"Box".toList, [⟨"Box.java".toList, "Box.java".toList, "java".toList,
    [⟨"Box".toList, "class".toList, some ⟨ofType⟩, [],
      [Method.make "get".toList "T get()".toList "T".toList (some ⟨ofMethod⟩)]⟩]⟩]⟩

/-- The parameter of a declaration is shown nowhere, and of what a method returns pages
show only what is said first. -/
theorem documentation_shown_box :
    let said := boxProject "A box.\n@param T the content".toList "@return one\n@return two".toList
    let unsaid := boxProject "A box.".toList "@return one".toList
    let printed := boxProject "A box.".toList "@return one\n@return two".toList
    (⟨"A box.\n@param T the content".toList⟩ : Block).tags.pairs =
        [("param".toList, "T the content".toList)] ∧
      renderPages said = renderPages unsaid ∧ Pdf.blocks said = Pdf.blocks printed := by
  intro said unsaid printed
  have hpages : said.seen Block.listed Block.listedForMethod =
      unsaid.seen Block.listed Block.listedForMethod := by decide +kernel
  have hblocks : said.seen Block.printed Block.printed =
      printed.seen Block.printed Block.printed := by decide +kernel
  exact ⟨by decide +kernel, (documentation_shown said).2.2.1 unsaid hpages,
    (documentation_shown said).2.2.2 printed hblocks⟩

end DocPress
