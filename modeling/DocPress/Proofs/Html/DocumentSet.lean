import DocPress.Html.Generate
import DocPress.Proofs.Html.Link
import DocPress.Proofs.Html.PageName

/-!
# The set of documents and its links

The page of a file links the stylesheet and the index; the index links the stylesheet and
the pages of all files that have one.

The main statement is that the documents of a project are closed under their links: the
index links the page of every file with declarations once and in order, every link leads
to one of the documents, and a page that is linked is the page of the file in whose row
the link stands.
-/

namespace DocPress.Html

open DocPress.Html.Frame (isPlain_nil IsPlain)

/-! ### Parts without links -/

theorem isPlain_documentation (block : Option Block) : (documentation block).frame.IsPlain := by
  cases block with
  | none => exact isPlain_nil
  | some b =>
      refine isPlain_append ?_ (isPlain_flatMap fun tag _ => ?_)
      · split
        · exact isPlain_nil
        · exact isPlain_pieces (by repeat constructor) (by decide)
      · exact isPlain_pieces (by repeat constructor) (by decide)

theorem isPlain_fieldRow (f : Field) : (fieldRow f).frame.IsPlain := by
  refine isPlain_append (isPlain_append ?_ (isPlain_documentation _)) ?_
  all_goals exact isPlain_pieces (by repeat constructor) (by decide)

theorem isPlain_fieldTable (fields : List Field) : (fieldTable fields).frame.IsPlain := by
  rw [fieldTable]
  split
  · exact isPlain_nil
  · refine isPlain_append (isPlain_append ?_ (isPlain_flatMap fun f _ => isPlain_fieldRow f)) ?_
    all_goals exact isPlain_pieces (by repeat constructor) (by decide +kernel)

theorem isPlain_parameterList (parameters : List Parameter) :
    (parameterList parameters).frame.IsPlain := by
  rw [parameterList]
  split
  · exact isPlain_nil
  · refine isPlain_append (isPlain_append ?_ (isPlain_flatMap fun q _ => ?_)) ?_
    all_goals exact isPlain_pieces (by repeat constructor) (by decide)

theorem isPlain_returnPart (m : Method) : (returnPart m).frame.IsPlain := by
  rw [returnPart]
  split
  · exact isPlain_nil
  · refine isPlain_append (isPlain_append ?_ ?description) ?_
    case description =>
      split
      · exact isPlain_nil
      · exact isPlain_pieces (by repeat constructor) (by decide)
    all_goals exact isPlain_pieces (by repeat constructor) (by decide)

theorem isPlain_methodArticle (owner : Text) (m : Method) :
    (methodArticle owner m).frame.IsPlain := by
  refine isPlain_append (isPlain_append (isPlain_append (isPlain_append (isPlain_append ?_
    (isPlain_documentation _)) ?_) (isPlain_parameterList _)) (isPlain_returnPart m)) ?_
  all_goals exact isPlain_pieces (by repeat constructor) (by decide)

theorem isPlain_methodList (owner : Text) (methods : List Method) :
    (methodList owner methods).frame.IsPlain := by
  rw [methodList]
  split
  · exact isPlain_nil
  · refine isPlain_append (m := [_]) ?_ (isPlain_flatMap fun m _ => isPlain_methodArticle owner m)
    exact isPlain_pieces (by repeat constructor) (by decide)

theorem isPlain_kindBadge (kind : Text) : (kindBadge kind).frame.IsPlain :=
  isPlain_pieces (by repeat constructor) (by decide)

theorem isPlain_typeSection (c : TypeDecl) : (typeSection c).frame.IsPlain := by
  refine isPlain_append (isPlain_append (isPlain_append (isPlain_append (isPlain_append
    (isPlain_append (isPlain_append ?_ (isPlain_kindBadge _)) ?_) (isPlain_documentation _)) ?_)
    (isPlain_fieldTable _)) (isPlain_methodList _ _)) ?_
  all_goals exact isPlain_pieces (by repeat constructor) (by decide)

theorem isPlain_typeList (cs : List TypeDecl) : (typeList cs).frame.IsPlain := by
  induction cs with
  | nil => exact isPlain_nil
  | cons c cs ih =>
      refine isPlain_append (m := [_]) ?_ (isPlain_append (isPlain_kindBadge c.kind)
        (isPlain_append (m := [_, _]) ?_ ih))
      · exact isPlain_pieces (by repeat constructor) (by decide)
      · cases cs.isEmpty
        all_goals exact isPlain_pieces (by repeat constructor) (by decide)

/-! ### Pages of files -/

theorem render_append (a b : Markup) : Markup.render (a ++ b) = a.render ++ b.render :=
  List.flatMap_append

theorem render_ofList (t : Text) (m : Markup) :
    Markup.render (fixed (String.ofList t) :: m) = t ++ m.render := by
  show (String.ofList t).toList ++ m.render = t ++ m.render
  rw [String.toList_ofList]

theorem render_text (t : Text) (m : Markup) : Markup.render (.text t :: m) = escape t ++ m.render :=
  rfl

/-- The head of a page links the stylesheet. -/
theorem hasLinks_pageHead {title : Markup} (h : title.frame.IsPlain) :
    HasLinks (pageHead title).render [] [stylesheetPath] := by
  rw [pageHead, render_append, render_append]
  show HasLinks _ ([] ++ [] ++ []) ([] ++ [] ++ [stylesheetPath])
  apply HasLinks.append
  · apply HasLinks.append
    · exact (isPlain_pieces (by repeat constructor) (by decide)).hasLinks
    · exact h.hasLinks
  · rw [render_ofList, render_text, render_ofList]
    exact ⟨anchors_append (by decide), by decide, by decide⟩

theorem isPlain_pageFoot : pageFoot.frame.IsPlain :=
  isPlain_pieces (by repeat constructor) (by decide)

/-- Markup without links with an anchor in it. -/
theorem hasLinks_anchored {a b : Markup} (ha : a.frame.IsPlain) (hb : b.frame.IsPlain)
    {link : Text} (hquote : '"' ∉ link) (htag : '<' ∉ link) :
    HasLinks (a.render ++ (anchorStart ++ (link ++ ("\">".toList ++ b.render)))) [link] [link] := by
  have hall := (ha.hasLinks.append (hasLinks_anchor hquote htag)).append hb.hasLinks
  simp only [List.append_assoc] at hall
  exact hall

theorem hasLinks_filePage (p : Project) (f : FileDoc) :
    HasLinks (filePage p f).render [indexPage] [stylesheetPath, indexPage] := by
  rw [filePage, render_append, render_append, render_append]
  show HasLinks _ ([] ++ [indexPage] ++ [] ++ []) ([stylesheetPath] ++ [indexPage] ++ [] ++ [])
  apply HasLinks.append
  · apply HasLinks.append
    · apply HasLinks.append
      · exact hasLinks_pageHead (isPlain_pieces (by repeat constructor) (by decide))
      · -- the way back to the index
        have hplain : (Markup.frame [.text p.name, fixed "</a> / ", .text f.path,
            fixed "</nav>\n  <main>\n    <h1>", .text f.name,
            fixed "</h1>\n    <p class=\"path\">", .text f.path, fixed " (", .text f.language,
            fixed ")</p>\n"]).IsPlain :=
          isPlain_pieces (by repeat constructor) (by decide)
        have hbefore : (Markup.frame [fixed "  <nav>"]).IsPlain := by decide
        have hindex : '"' ∉ indexPage ∧ '<' ∉ indexPage := by decide
        exact hasLinks_anchored hbefore hplain hindex.1 hindex.2
    · exact (isPlain_flatMap fun c _ => isPlain_typeSection c).hasLinks
  · exact isPlain_pageFoot.hasLinks

/-! ### The index -/

/-- Nothing in the name of a page is escaped. -/
theorem IsPageFile.escape_eq {name : Text} (h : IsPageFile name) : escape name = name := by
  obtain ⟨stem, rfl, -, hstem⟩ := h
  have hending : (".html".toList.all fun c => escapeChar c == [c]) = true := by decide
  have hchars : ∀ c ∈ stem ++ ".html".toList, escapeChar c = [c] := by
    intro c hc
    rcases List.mem_append.1 hc with hmem | hmem
    · rcases escapeChar_cases c with hescaped | ⟨hself, -⟩
      · rcases hescaped with rfl | rfl | rfl | rfl | rfl <;> exact absurd (hstem _ hmem) (by decide)
      · exact hself
    · exact beq_iff_eq.1 (List.all_eq_true.1 hending c hmem)
  rw [escape, List.flatMap_congr hchars, List.flatMap_singleton']

theorem IsPageFile.mark_notMem {name : Text} (h : IsPageFile name) {c : Char}
    (hc : isMark c = true) : c ∉ name := by
  have hescape := mark_notMem_escape hc name
  rwa [h.escape_eq] at hescape

/-- What stands in a row of the index behind the path of the file. -/
def rowRest (f : FileDoc) : Markup :=
  [fixed "          <td>", .text f.language, fixed "</td>\n          <td>\n"]
    ++ typeList f.classes
    ++ [fixed "          </td>\n        </tr>\n"]

theorem isPlain_rowRest (f : FileDoc) : (rowRest f).frame.IsPlain := by
  refine isPlain_append (isPlain_append ?_ (isPlain_typeList _)) ?_
  all_goals exact isPlain_pieces (by repeat constructor) (by decide)

theorem exists_fileRow_eq (f : FileDoc) (page : Option Text) :
    ∃ cell : Markup, fileRow f page = [fixed "        <tr>\n"] ++ (cell ++ rowRest f) := by
  cases page with
  | none => exact ⟨_, by rw [fileRow, rowRest]; simp only [List.append_assoc]; rfl⟩
  | some name => exact ⟨_, by rw [fileRow, rowRest]; simp only [List.append_assoc]; rfl⟩

theorem render_fileRow_some (f : FileDoc) {name : Text} (h : IsPageFile name) :
    (fileRow f (some name)).render =
      Markup.render [fixed "        <tr>\n", fixed "          <td>"] ++
        (anchorStart ++ (name ++ ("\">".toList ++
          Markup.render (.text f.path :: fixed "</a></td>\n" :: rowRest f)))) := by
  have hstart : "          <td><a href=\"".toList = "          <td>".toList ++ anchorStart := by
    decide
  simp only [fileRow, rowRest, Markup.render, List.flatMap_append, List.flatMap_cons,
    List.flatMap_nil, Piece.render, fixed, h.escape_eq, hstart, List.append_assoc, List.append_nil]

/-- The row of a file links its page, and nothing else. -/
theorem hasLinks_fileRow (f : FileDoc) {page : Option Text} (h : ∀ name ∈ page, IsPageFile name) :
    HasLinks (fileRow f page).render page.toList page.toList := by
  cases page with
  | none =>
      refine Frame.IsPlain.hasLinks (isPlain_append (isPlain_append (isPlain_append
        (isPlain_append ?_ ?_) ?_) (isPlain_typeList _)) ?_)
      all_goals exact isPlain_pieces (by repeat constructor) (by decide)
  | some name =>
      have hname := h name rfl
      rw [render_fileRow_some f hname]
      refine hasLinks_anchored ?_ ?_ (hname.mark_notMem rfl) (hname.mark_notMem rfl)
      · exact isPlain_pieces (by repeat constructor) (by decide)
      · refine isPlain_append (m := [_, _]) ?_ (isPlain_rowRest f)
        exact isPlain_pieces (by repeat constructor) (by decide)

/-- The table of files is the rows with markup without links around them. -/
theorem exists_fileTable_eq (p : Project) : ∃ before after : Markup,
    fileTable p = before ++ (p.files.zip (pageNames p.files)).flatMap
      (fun entry => fileRow entry.1 entry.2) ++ after ∧
      before.frame.IsPlain ∧ after.frame.IsPlain := by
  rw [fileTable]
  split
  · next hempty =>
      rw [List.isEmpty_iff.1 hempty]
      exact ⟨[fixed "    <p class=\"empty\">No documented files.</p>\n"], [], rfl,
        isPlain_pieces (by repeat constructor) (by decide), isPlain_nil⟩
  · refine ⟨_, _, rfl, ?_, ?_⟩
    all_goals exact isPlain_pieces (by repeat constructor) (by decide +kernel)

theorem flatMap_toList_zip {files : List FileDoc} {names : List (Option Text)}
    (h : files.length = names.length) :
    (files.zip names).flatMap (fun entry => entry.2.toList) = names.reduceOption := by
  induction names generalizing files with
  | nil => rw [List.zip_nil_right]; rfl
  | cons name names ih =>
      obtain ⟨f, files, rfl⟩ := List.exists_cons_of_length_eq_add_one h
      have hrest := ih (Nat.succ.inj h)
      rw [List.zip_cons_cons, List.flatMap_cons, hrest]
      cases name <;> rfl

/-- The row of the index for a file whose page has the given name. -/
structure IsRow (f : FileDoc) (page : Option Text) (row : Text) : Prop where
  starts : "        <tr>\n".toList <+: row
  ends : "        </tr>\n".toList <:+ row
  anchors_eq : anchors row = page.toList
  /-- The link is the path of the file. -/
  shown : ∀ name ∈ page,
    anchorStart ++ (name ++ ("\">".toList ++ (escape f.path ++ "</a>".toList))) <:+: row

theorem isRow_fileRow (f : FileDoc) {page : Option Text} (h : ∀ name ∈ page, IsPageFile name) :
    IsRow f page (fileRow f page).render := by
  obtain ⟨cell, hrow⟩ := exists_fileRow_eq f page
  constructor
  · rw [hrow, render_append]
    exact List.prefix_append _ _
  · have hend : "        </tr>\n".toList <:+
        Markup.render [fixed "          </td>\n        </tr>\n"] := by decide
    rw [hrow, rowRest, ← List.append_assoc, ← List.append_assoc, render_append]
    exact hend.trans (List.suffix_append _ _)
  · exact (hasLinks_fileRow f h).anchors
  · intro name hname
    obtain rfl := Option.mem_def.1 hname
    rw [render_fileRow_some f (h name hname)]
    refine ⟨Markup.render [fixed "        <tr>\n", fixed "          <td>"],
      "</td>\n".toList ++ (rowRest f).render, ?_⟩
    simp only [List.append_assoc]
    rfl

theorem exists_indexMarkup_eq (p : Project) : ∃ header : Markup,
    indexMarkup p = pageHead [.text p.name] ++ header ++ fileTable p ++ pageFoot ∧
      header.frame.IsPlain := by
  exact ⟨_, rfl, isPlain_pieces (by repeat constructor) (by decide)⟩

/-- The index is the rows of all files, with markup around them that links only the
stylesheet. -/
theorem exists_index_eq (p : Project) : ∃ before after : Text,
    (indexMarkup p).render = before ++ (p.files.zip (pageNames p.files)).flatMap
      (fun entry => (fileRow entry.1 entry.2).render) ++ after ∧
      HasLinks before [] [stylesheetPath] ∧ HasLinks after [] [] := by
  obtain ⟨header, hindex, hheader⟩ := exists_indexMarkup_eq p
  obtain ⟨a, b, htable, ha, hb⟩ := exists_fileTable_eq p
  have htitle : (Markup.frame [.text p.name]).IsPlain :=
    isPlain_pieces (by repeat constructor) (by decide)
  refine ⟨(pageHead [.text p.name]).render ++ header.render ++ a.render,
    b.render ++ pageFoot.render, ?_,
    ((hasLinks_pageHead htitle).append hheader.hasLinks).append ha.hasLinks,
    hb.hasLinks.append isPlain_pageFoot.hasLinks⟩
  have hrows (entries : List (FileDoc × Option Text)) :
      Markup.render (entries.flatMap fun entry => fileRow entry.1 entry.2) =
        entries.flatMap fun entry => (fileRow entry.1 entry.2).render := List.flatMap_assoc
  simp only [hindex, htable, render_append, hrows, List.append_assoc]

theorem isPageFile_of_mem_zip {p : Project} {entry : FileDoc × Option Text}
    (h : entry ∈ p.files.zip (pageNames p.files)) : ∀ name ∈ entry.2, IsPageFile name := by
  intro name hname
  have hmem : some name ∈ pageNames p.files := hname ▸ (List.of_mem_zip h).2
  exact (isNaming_pageNames p.files).characters name (List.reduceOption_mem_iff.2 hmem)

theorem hasLinks_indexMarkup (p : Project) : HasLinks (indexMarkup p).render
    (pageNames p.files).reduceOption (stylesheetPath :: (pageNames p.files).reduceOption) := by
  obtain ⟨before, after, hindex, hbefore, hafter⟩ := exists_index_eq p
  -- each row has the name of its page, if any, so the rows have all names in order
  have hrows : HasLinks ((p.files.zip (pageNames p.files)).flatMap fun entry =>
      (fileRow entry.1 entry.2).render) (pageNames p.files).reduceOption
      (pageNames p.files).reduceOption := by
    have hlength := (isNaming_pageNames p.files).aligned.length_eq
    have hflat := HasLinks.flatMap fun entry hentry =>
      hasLinks_fileRow entry.1 (isPageFile_of_mem_zip (p := p) hentry)
    rwa [flatMap_toList_zip hlength] at hflat
  have hall := (hbefore.append hrows).append hafter
  rw [List.append_nil, List.append_nil] at hall
  rw [hindex]
  exact hall

/-! ### The artifact -/

/-- A task that succeeds is a first part that succeeds and the rest after it. -/
theorem exists_of_bind_ok {ε α β : Type} {task : DiskTask ε α} {rest : α → DiskTask ε β}
    {d d' : Disk} {b : β} (h : (task >>= rest).run.run d = (.ok b, d')) :
    ∃ a middle, task.run.run d = (.ok a, middle) ∧ (rest a).run.run middle = (.ok b, d') := by
  rw [ExceptT.run_bind, StateT.run_bind] at h
  rcases hfirst : task.run.run d with ⟨_ | a, middle⟩
  · rw [hfirst] at h
    cases h
  · rw [hfirst] at h
    exact ⟨a, middle, rfl, h⟩

/-- What is made when nothing fails: all pages, and the stylesheet after them. -/
theorem exists_of_generate_ok {s : Settings} {runName : Text} {p : Project} {d d' : Disk}
    {a : Artifact} (h : (generate s runName p).run.run d = (.ok a, d')) :
    ∃ css, a = .documents format (s.output / Path.ofText runName).toText indexPage
      (renderPages p ++ [(stylesheetPath, css)]) := by
  rw [generate] at h
  obtain ⟨css, d₁, -, h⟩ := exists_of_bind_ok h
  obtain ⟨_, d₂, -, h⟩ := exists_of_bind_ok h
  exact ⟨css, by cases h; rfl⟩

/-! ### Closed sets -/

/-- The index of a project: a row for every file in order, and no anchor elsewhere. -/
structure IsIndex (p : Project) (index : Text) : Prop where
  rows : ∃ before rows after, index = before ++ (rows.flatten ++ after) ∧
    anchors before = [] ∧ anchors after = [] ∧
    List.Forall₂ (fun entry row => IsRow entry.1 entry.2 row) (p.files.zip (pageNames p.files)) rows
  anchors_eq : anchors index = (pageNames p.files).reduceOption

/-- The links of all pages of a project. -/
structure IsLinked (p : Project) : Prop where
  index : ∃ index, (renderPages p).lookup indexPage = some index ∧ IsIndex p index
  /-- The files with declarations are those with a page, and no page is linked twice. -/
  aligned : List.Forall₂ (fun f name => name = none ↔ f.classes = []) p.files (pageNames p.files)
  once : (pageNames p.files).reduceOption.Nodup
  /-- A name leads to the page of the file in whose row it stands. -/
  pages : ∀ (i : Nat) f name, p.files[i]? = some f → (pageNames p.files)[i]? = some (some name) →
    (renderPages p).lookup name = some (filePage p f).render
  links : ∀ page ∈ renderPages p, ∀ link ∈ links page.2,
    link = indexPage ∨ link = stylesheetPath ∨ link ∈ (pageNames p.files).reduceOption

/-- The documents of a project by name, each of whose links leads to one of them. -/
structure IsClosedSet (p : Project) (files : List (Text × Text)) : Prop where
  names : files.map Prod.fst = indexPage :: ((pageNames p.files).reduceOption ++ [stylesheetPath])
  distinct : (files.map Prod.fst).Nodup
  /-- A link is a path from the directory of the page that it stands in. -/
  resolves : ∀ page ∈ renderPages p, page ∈ files ∧ ∀ link ∈ links page.2, ∃ target ∈ files,
    (Path.ofText page.1).parent / Path.ofText link = Path.ofText target.1

theorem isIndex_indexMarkup (p : Project) : IsIndex p (indexMarkup p).render := by
  obtain ⟨before, after, hindex, hbefore, hafter⟩ := exists_index_eq p
  refine ⟨⟨before, (p.files.zip (pageNames p.files)).map fun entry =>
    (fileRow entry.1 entry.2).render, after, ?_, hbefore.anchors, hafter.anchors, ?_⟩,
    (hasLinks_indexMarkup p).anchors⟩
  · rw [hindex, List.flatMap_def, List.append_assoc]
  · rw [List.forall₂_map_right_iff, List.forall₂_same]
    exact fun entry hentry => isRow_fileRow entry.1 (isPageFile_of_mem_zip (p := p) hentry)

theorem mem_renderPages {p : Project} {page : Text × Text} (h : page ∈ renderPages p) :
    page = (indexPage, (indexMarkup p).render) ∨
      page.1 ∈ (pageNames p.files).reduceOption ∧ ∃ f, page.2 = (filePage p f).render := by
  obtain ⟨made, hmade, rfl⟩ := List.mem_map.1 h
  rcases List.mem_cons.1 hmade with rfl | hfile
  · exact .inl rfl
  · obtain ⟨⟨f, page⟩, hentry, heq⟩ := List.mem_filterMap.1 hfile
    obtain ⟨name, rfl, rfl⟩ := Option.map_eq_some_iff.1 heq
    exact .inr ⟨List.reduceOption_mem_iff.2 (List.of_mem_zip hentry).2, f, rfl⟩

theorem links_subset {p : Project} {page : Text × Text} (h : page ∈ renderPages p) {link : Text}
    (hlink : link ∈ links page.2) :
    link = indexPage ∨ link = stylesheetPath ∨ link ∈ (pageNames p.files).reduceOption := by
  rcases mem_renderPages h with rfl | ⟨-, f, hpage⟩
  · rw [(hasLinks_indexMarkup p).links_eq, List.mem_cons] at hlink
    exact .inr hlink
  · rw [hpage, (hasLinks_filePage p f).links_eq, List.mem_cons, List.mem_singleton] at hlink
    rcases hlink with rfl | rfl
    · exact .inr (.inl rfl)
    · exact .inl rfl

theorem isLinked (p : Project) : IsLinked p := by
  have hnaming := isNaming_pageNames p.files
  refine ⟨⟨_, List.lookup_cons_self, isIndex_indexMarkup p⟩, hnaming.aligned, ?_,
    fun i f name => lookup_renderPages, fun page hpage link => links_subset hpage⟩
  have hnodup := nodup_map_fst_renderPages p
  rw [(isPageSet_renderPages p).names] at hnodup
  exact hnodup.tail

/-- A link in a page of the directory of all pages is the path that it is. -/
theorem IsPageFile.parent_div {name : Text} (h : IsPageFile name) (target : Path) :
    (Path.ofText name).parent / target = target := by
  rw [h.ofText_eq]
  obtain ⟨root, parts⟩ := target
  cases root <;> rfl

theorem isClosedSet_files (p : Project) (css : Text) :
    IsClosedSet p (renderPages p ++ [(stylesheetPath, css)]) := by
  have hnaming := isNaming_pageNames p.files
  have hnames : (renderPages p ++ [(stylesheetPath, css)]).map Prod.fst =
      indexPage :: ((pageNames p.files).reduceOption ++ [stylesheetPath]) := by
    rw [List.map_append, (isPageSet_renderPages p).names]
    rfl
  refine ⟨hnames, ?_, fun page hpage => ⟨List.mem_append_left _ hpage, fun link hlink => ?_⟩⟩
  · -- names were chosen with the stylesheet in second place; it is written last
    have hperm : (indexPage :: ((pageNames p.files).reduceOption ++ [stylesheetPath])).Perm
        ([indexPage, stylesheetPath] ++ (pageNames p.files).reduceOption) :=
      .cons _ (List.perm_append_singleton _ _)
    rw [hnames, hperm.nodup_iff]
    exact hnaming.distinct.imp fun hne heq => hne (congrArg Text.lower heq)
  · have hmem : link ∈ (renderPages p ++ [(stylesheetPath, css)]).map Prod.fst := by
      have hcases := links_subset hpage hlink
      rw [hnames]
      simp only [List.mem_cons, List.mem_append, List.not_mem_nil, or_false]
      tauto
    obtain ⟨target, htarget, rfl⟩ := List.mem_map.1 hmem
    have hfile : IsPageFile page.1 := by
      rcases mem_renderPages hpage with rfl | ⟨hname, -⟩
      · exact ⟨"index".toList, rfl, by decide, List.all_eq_true.1 (by decide)⟩
      · exact hnaming.characters _ hname
    exact ⟨target, htarget, hfile.parent_div _⟩

/-- The documents of a project are closed under their links.  In the index every file with
declarations has the link to its page in its row, and there is no other anchor; every link
of every page leads to one of the documents that a successful run makes, which are the
index, the pages in order and the stylesheet, under names of their own. -/
theorem documents_closed_under_links (p : Project) : IsLinked p ∧
    ∀ s runName d d' a, (generate s runName p).run.run d = (.ok a, d') →
      ∃ root files, a = .documents format root indexPage files ∧ IsClosedSet p files := by
  refine ⟨isLinked p, fun s runName d d' a h => ?_⟩
  obtain ⟨css, ha⟩ := exists_of_generate_ok h
  exact ⟨_, _, ha, isClosedSet_files p css⟩

/-- A project of which one file has a page and another one has none. -/
def halfLinked : Project :=
  ⟨"Box".toList, [⟨"Box.java".toList, "src/Box.java".toList, "java".toList,
    [⟨"href=".toList, "class".toList, none, [], []⟩]⟩,
    ⟨"Empty.java".toList, "Empty.java".toList, "java".toList, []⟩]⟩

/-- A run that succeeds. -/
theorem documents_closed_under_links_half : ∃ a d' root files,
    (generate ⟨⟨"/".toList, ["out".toList]⟩, none⟩ "run".toList halfLinked).run.run (.empty []) =
      (.ok a, d') ∧ a = .documents format root indexPage files ∧ IsClosedSet halfLinked files := by
  have hok : ((generate ⟨⟨"/".toList, ["out".toList]⟩, none⟩ "run".toList
      halfLinked).run.run (.empty [])).1.isOk = true := by decide +kernel
  rcases hrun : (generate ⟨⟨"/".toList, ["out".toList]⟩, none⟩ "run".toList
      halfLinked).run.run (.empty []) with ⟨_ | a, d'⟩
  · rw [hrun] at hok
    cases hok
  · obtain ⟨root, files, ha, hclosed⟩ :=
      (documents_closed_under_links halfLinked).2 _ _ _ _ a hrun
    exact ⟨a, d', root, files, rfl, ha, hclosed⟩

end DocPress.Html
