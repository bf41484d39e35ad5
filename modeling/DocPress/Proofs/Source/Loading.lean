import DocPress.Proofs.Fallible
import DocPress.Proofs.Storage.PathOrder
import DocPress.Source.Load
import Mathlib.Data.List.Perm.Basic
import Mathlib.Data.List.Sort

/-!
# Trees of files and their two homes

A `FileTree` stands on a disk below a directory (`Disk.HoldsBelow`) or in an archive
(`Disk.HoldsArchive`), and can be loaded from either.  Both readers put the files in order
and then do the same with them (`result_ofPath`): the directory's by their names one after
the other, the archive's by the texts of their paths (`exists_directoryFiles`,
`exists_archiveFiles`).

The main statement is that both give the same units, and that they give them in the same
order exactly if no two of the files read are `Tangled`.
-/

namespace DocPress

open Text

/-- A finite tree of files: what they hold, by the names that lead to them. -/
structure FileTree where
  files : List (Place × Bytes)
  distinct : (files.map Prod.fst).Nodup
  named : ∀ f ∈ files, f.1 ≠ [] ∧ ∀ name ∈ f.1, IsFileName name

/-! ### Where a tree can stand -/

/-- The files below a directory are those of a tree. -/
def Disk.HoldsBelow (d : Disk) (p : Path) (tree : FileTree) : Prop :=
  (d.entries.map Prod.fst).Nodup ∧
    ∃ place, d.locate p.toText = .ok place ∧ d.entry? place = some .directory ∧
      ∀ names bs, (names, bs) ∈ tree.files ↔
        names ≠ [] ∧ ∃ content, d.entry? (place ++ names) = some (.file content) ∧
          content.toBytes = bs

/-- The members of an archive that are not directories, by name and content. -/
def Archive.fileMembers (lib : Archive.Library) (file : Bytes) (ms : List Archive.Member) :
    List (Text × Except Archive.ArchiveError Bytes) :=
  (ms.filter fun m => m.name.getLast? ≠ some '/').map fun m =>
    (m.name, Archive.content lib file m)

/-- An archive holds the files of a tree under their relative paths, in any order and each
once. -/
def Archive.Holds (lib : Archive.Library) (file : Bytes) (tree : FileTree) : Prop :=
  ∃ ms, Archive.directory file = .ok ms ∧
    (Archive.fileMembers lib file ms).Perm (tree.files.map fun f => (pathText f.1, .ok f.2))

/-- A path leads to an archive that holds a tree. -/
def Disk.HoldsArchive (d : Disk) (lib : Archive.Library) (p : Path) (tree : FileTree) : Prop :=
  Text.lower p.suffix = ".zip".toList ∧
    ∃ content, d.look p.toText = .ok (.file content) ∧ Archive.Holds lib content.toBytes tree

/-! ### What is read of a tree -/

/-- A path fits one of the patterns. -/
def Fits (path : Text) (patterns : List Text) : Prop :=
  ∃ t ∈ patterns, Pattern.isMatch (Pattern.read t) path = true

instance (path : Text) (patterns : List Text) : Decidable (Fits path patterns) :=
  inferInstanceAs (Decidable (∃ t ∈ patterns, _))

/-- The selection by two lists of patterns. -/
def Selection.ofTexts (included excluded : List Text) : Selection :=
  ⟨included.map .text, excluded.map .text⟩

/-- A file is read: the patterns select it and it is not binary. -/
def IsRead (included excluded : List Text) (f : Place × Bytes) : Prop :=
  (included = [] ∨ Fits (pathText f.1) included) ∧ ¬ Fits (pathText f.1) excluded ∧ 0 ∉ f.2

instance (included excluded : List Text) : DecidablePred (IsRead included excluded) :=
  fun f => inferInstanceAs (Decidable (_ ∧ _ ∧ (0 : UInt8) ∉ f.2))

/-- The unit of a file. -/
def unitOfFile (f : Place × Bytes) : SourceUnit :=
  Loading.unitOf (pathText f.1) (Utf8.decodeReplacing f.2)

/-- The units of files that are read. -/
def unitsOf (included excluded : List Text) (files : List (Place × Bytes)) : List SourceUnit :=
  (files.filter fun f => IsRead included excluded f).map unitOfFile

variable {lib : Archive.Library} {included excluded : List Text} {tree : FileTree} {d : Disk}
  {p : Path}

@[simp] theorem not_fits_nil (path : Text) : ¬ Fits path [] := by
  simp [Fits]

@[simp] theorem fits_cons {path t : Text} {patterns : List Text} :
    Fits path (t :: patterns) ↔
      Pattern.isMatch (Pattern.read t) path = true ∨ Fits path patterns := by
  simp [Fits]

theorem fitsAny_texts (path : Text) (patterns : List Text) :
    Selection.fitsAny path (patterns.map .text) = .ok (decide (Fits path patterns)) := by
  induction patterns with
  | nil => simp [Selection.fitsAny]
  | cons t patterns ih =>
      rw [List.map_cons, Selection.fitsAny, ih]
      by_cases ht : Pattern.isMatch (Pattern.read t) path = true
      · simp [ht]
      · simp [ht]

theorem holds_ofTexts (path : Text) :
    (Selection.ofTexts included excluded).holds path =
      .ok (decide ((included = [] ∨ Fits path included) ∧ ¬ Fits path excluded)) := by
  rw [Selection.holds, Selection.ofTexts, fitsAny_texts, fitsAny_texts]
  by_cases hnil : included = []
  · simp [hnil, bind, Except.bind]
  · by_cases hfits : Fits path included
    · simp [hnil, hfits, bind, Except.bind]
    · simp [hnil, hfits, bind, Except.bind]

theorem textOf?_eq (bs : Bytes) :
    Loading.textOf? bs = if 0 ∉ bs then some (Utf8.decodeReplacing bs) else none := by
  by_cases h : (0 : UInt8) ∈ bs
  · simp [Loading.textOf?, h]
  · simp [Loading.textOf?, h]

/-- Files that can all be read give the units of those that are selected and not binary. -/
theorem ofFiles_eq (included excluded : List Text) (files : List (Place × Bytes)) :
    let loading := Loading.ofFiles (Selection.ofTexts included excluded)
      (files.map fun f => .ok (pathText f.1, f.2))
    loading.stopped = none ∧ loading.units = unitsOf included excluded files := by
  induction files with
  | nil => exact ⟨rfl, rfl⟩
  | cons f files ih =>
      obtain ⟨hstopped, hunits⟩ := ih
      simp only [List.map_cons, Loading.ofFiles, holds_ofTexts, textOf?_eq]
      by_cases hselected : (included = [] ∨ Fits (pathText f.1) included) ∧
          ¬ Fits (pathText f.1) excluded
      · rw [decide_eq_true hselected]
        by_cases hbinary : (0 : UInt8) ∈ f.2
        · have hread : ¬ IsRead included excluded f := fun h => h.2.2 hbinary
          simp [hbinary, hstopped, hunits, unitsOf, hread]
        · have hread : IsRead included excluded f := ⟨hselected.1, hselected.2, hbinary⟩
          simp [hbinary, hstopped, hunits, unitsOf, hread, unitOfFile]
      · rw [decide_eq_false hselected]
        have hread : ¬ IsRead included excluded f := fun h => hselected ⟨h.1, h.2.1⟩
        simp [hstopped, hunits, unitsOf, hread]

/-- A path that leads to files that can all be read gives their units. -/
theorem result_ofPath {files : List (Place × Bytes)} (included excluded : List Text)
    (h : Loading.filesAt lib d p = .ok (files.map fun f => .ok (pathText f.1, f.2))) :
    (Loading.ofPath lib d (Selection.ofTexts included excluded) p).result =
      .ok (unitsOf included excluded files) := by
  obtain ⟨hstopped, hunits⟩ := ofFiles_eq included excluded files
  rw [Loading.ofPath, h]
  dsimp only
  rw [Loading.result, hstopped, hunits]

/-! ### The files below a directory -/

/-- The file that an entry of a disk is below a place, if it is one. -/
def fileBelow? (place : Place) (e : Place × DiskEntry) : Option (Place × FileContent) :=
  match e.2 with
  | .file content =>
      if place.isPrefixOf e.1 && place.length < e.1.length then
        some (e.1.drop place.length, content)
      else none
  | .directory => none

theorem filesBelow_eq (d : Disk) (place : Place) :
    d.filesBelow place =
      (d.entries.filterMap (fileBelow? place)).mergeSort fun a b => Disk.placeLe a.1 b.1 := rfl

theorem fileBelow?_eq_some_iff {place names : Place} {e : Place × DiskEntry}
    {content : FileContent} :
    fileBelow? place e = some (names, content) ↔
      names ≠ [] ∧ e = (place ++ names, .file content) := by
  obtain ⟨found, entry⟩ := e
  cases entry with
  | directory => simp [fileBelow?]
  | file c =>
      simp only [fileBelow?, Option.ite_none_right_eq_some, Bool.and_eq_true, decide_eq_true_eq,
        List.isPrefixOf_iff_prefix, Option.some.injEq, Prod.mk.injEq]
      constructor
      · rintro ⟨⟨⟨rest, rfl⟩, hlength⟩, hdrop, rfl⟩
        rw [List.drop_left] at hdrop
        subst hdrop
        refine ⟨?_, rfl, rfl⟩
        rintro rfl
        simp at hlength
      · rintro ⟨hne, rfl, h⟩
        cases h
        have hlength := List.length_pos_iff.2 hne
        simp [hlength]

/-- Entries with distinct places are found by their place. -/
theorem entry?_eq_some_iff (hd : (d.entries.map Prod.fst).Nodup) {place : Place}
    (hne : place ≠ []) {entry : DiskEntry} :
    d.entry? place = some entry ↔ (place, entry) ∈ d.entries := by
  have hentry : d.entry? place = (d.entries.find? fun e => e.1 == place).map Prod.snd := by
    cases place with
    | nil => exact absurd rfl hne
    | cons name place => rfl
  rw [hentry, Option.map_eq_some_iff]
  constructor
  · rintro ⟨e, hfind, rfl⟩
    have hplace : e.1 = place := by simpa using List.find?_some hfind
    rw [← hplace]
    exact List.mem_of_find?_eq_some hfind
  · intro hmem
    have hsome : (d.entries.find? fun e => e.1 == place).isSome := by
      simp only [List.find?_isSome, beq_iff_eq]
      exact ⟨_, hmem, rfl⟩
    obtain ⟨e, hfind⟩ := Option.isSome_iff_exists.1 hsome
    have hplace : e.1 = place := by simpa using List.find?_some hfind
    have heq : e = (place, entry) :=
      List.inj_on_of_nodup_map hd (List.mem_of_find?_eq_some hfind) hmem hplace
    exact ⟨e, hfind, by rw [heq]⟩

theorem mem_filesBelow (hd : (d.entries.map Prod.fst).Nodup) {place names : Place}
    {content : FileContent} :
    (names, content) ∈ d.filesBelow place ↔
      names ≠ [] ∧ d.entry? (place ++ names) = some (.file content) := by
  rw [filesBelow_eq, List.mem_mergeSort, List.mem_filterMap]
  constructor
  · rintro ⟨e, he, hfile⟩
    obtain ⟨hne, rfl⟩ := fileBelow?_eq_some_iff.1 hfile
    exact ⟨hne, (entry?_eq_some_iff hd (by simp [hne])).2 he⟩
  · rintro ⟨hne, hentry⟩
    have he := (entry?_eq_some_iff hd (by simp [hne])).1 hentry
    exact ⟨_, he, fileBelow?_eq_some_iff.2 ⟨hne, rfl⟩⟩

theorem nodup_filesBelow (hd : (d.entries.map Prod.fst).Nodup) (place : Place) :
    ((d.filesBelow place).map Prod.fst).Nodup := by
  rw [filesBelow_eq, ((List.mergeSort_perm _ _).map Prod.fst).nodup_iff]
  rw [List.Nodup, List.pairwise_map] at hd ⊢
  refine hd.filterMap _ fun e e' hne f hf f' hf' heq => hne ?_
  rw [(fileBelow?_eq_some_iff.1 hf).2, (fileBelow?_eq_some_iff.1 hf').2]
  exact congrArg (place ++ ·) heq

/-- A directory gives the files of its tree in order name by name. -/
theorem exists_directoryFiles (h : d.HoldsBelow p tree) :
    ∃ files : List (Place × Bytes),
      Loading.filesAt lib d p = .ok (files.map fun f => .ok (pathText f.1, f.2)) ∧
      files.Perm tree.files ∧ files.Pairwise fun f g => Disk.placeLe f.1 g.1 := by
  obtain ⟨hd, place, hlocate, hentry, hfiles⟩ := h
  refine ⟨(d.filesBelow place).map fun f => (f.1, f.2.toBytes), ?_, ?_, ?_⟩
  · have hlook : d.look? p.toText = .ok (some .directory) := by
      rw [Disk.look?, Disk.look, hlocate]
      simp only [hentry]
    rw [Loading.filesAt, hlook]
    simp only [hlocate, Loading.directoryFiles, List.map_map]
    rfl
  · -- no path is listed twice on either side, so it is enough to compare the members
    have hnodup : ((d.filesBelow place).map fun f => (f.1, f.2.toBytes)).Nodup := by
      refine List.Nodup.of_map Prod.fst ?_
      rw [List.map_map]
      exact nodup_filesBelow hd place
    refine (List.perm_ext_iff_of_nodup hnodup tree.distinct.of_map).2 ?_
    rintro ⟨names, bs⟩
    rw [hfiles, List.mem_map]
    constructor
    · rintro ⟨⟨found, content⟩, hmem, heq⟩
      cases heq
      obtain ⟨hne, hfile⟩ := (mem_filesBelow hd).1 hmem
      exact ⟨hne, content, hfile, rfl⟩
    · rintro ⟨hne, content, hfile, rfl⟩
      exact ⟨(names, content), (mem_filesBelow hd).2 ⟨hne, hfile⟩, rfl⟩
  · rw [List.pairwise_map, filesBelow_eq]
    have hle : ∀ a b, Disk.placeLe a b = true ↔ ¬ b < a := fun _ _ => placeLe_eq_true_iff
    exact List.pairwise_mergeSort (fun a b c => le_trans_of_iff hle a.1 b.1 c.1)
      (fun a b => le_total_of_iff hle a.1 b.1) _

/-! ### The members of an archive -/

/-- The file of a member that is not a directory, by its name and content. -/
def fileOfMember (m : Text × Except Archive.ArchiveError Bytes) : Except LoadError SourceFile :=
  match m.2 with
  | .error e => .error (.archive e)
  | .ok content => .ok ((Path.ofText m.1).toText, content)

theorem filterMap_memberFile {file : Bytes} {ms : List Archive.Member}
    (hnames : ∀ m ∈ ms, m.name ≠ []) :
    ms.filterMap (Loading.memberFile lib file) =
      (Archive.fileMembers lib file ms).map fileOfMember := by
  induction ms with
  | nil => rfl
  | cons m ms ih =>
      have hlast := List.getLast?_eq_some_getLast (hnames m List.mem_cons_self)
      have ih := ih fun n hn => hnames n (List.mem_cons_of_mem _ hn)
      by_cases hslash : m.name.getLast? = some '/'
      · have hnone : Loading.memberFile lib file m = none := by
          simp [Loading.memberFile, Archive.isDirectory, hslash]
        rw [List.filterMap_cons_none hnone, ih, Archive.fileMembers, Archive.fileMembers,
          List.filter_cons_of_neg (by simpa using hslash)]
      · have hsome : Loading.memberFile lib file m =
            some (fileOfMember (m.name, Archive.content lib file m)) := by
          rw [hlast, Option.some.injEq] at hslash
          rw [Loading.memberFile, Archive.isDirectory, hlast]
          simp only [hslash, decide_false, fileOfMember]
          cases Archive.content lib file m with
          | error e => rfl
          | ok content => rfl
        rw [List.filterMap_cons_some hsome, ih, Archive.fileMembers, Archive.fileMembers,
          List.filter_cons_of_pos (by simpa using hslash)]
        rfl

theorem mem_fileMembers {file : Bytes} {ms : List Archive.Member} {m : Archive.Member}
    (hm : m ∈ ms) (hslash : m.name.getLast? ≠ some '/') :
    (m.name, Archive.content lib file m) ∈ Archive.fileMembers lib file ms :=
  List.mem_map.2 ⟨m, List.mem_filter.2 ⟨hm, by simpa using hslash⟩, rfl⟩

theorem perm_fileMembers (lib : Archive.Library) (file : Bytes) {ms ns : List Archive.Member}
    (h : ms.Perm ns) :
    (Archive.fileMembers lib file ms).Perm (Archive.fileMembers lib file ns) :=
  (h.filter _).map _

theorem pairwise_fileMembers (lib : Archive.Library) (file : Bytes) {ms : List Archive.Member}
    (h : ms.Pairwise fun a b => Text.le a.name b.name) :
    (Archive.fileMembers lib file ms).Pairwise fun a b => Text.le a.1 b.1 := by
  rw [Archive.fileMembers, List.pairwise_map]
  exact h.filter _

/-- The members of an archive that holds a tree have names. -/
theorem name_ne_nil_of_perm {file : Bytes} {ms : List Archive.Member}
    (h : (Archive.fileMembers lib file ms).Perm (tree.files.map fun f => (pathText f.1, .ok f.2)))
    {m : Archive.Member} (hm : m ∈ ms) : m.name ≠ [] := by
  intro hnil
  have hslash : m.name.getLast? ≠ some '/' := by simp [hnil]
  obtain ⟨f, hf, heq⟩ := List.mem_map.1 (h.mem_iff.1 (mem_fileMembers hm hslash))
  obtain ⟨hne, hnames⟩ := tree.named f hf
  exact pathText_ne_nil hne hnames ((congrArg Prod.fst heq).trans hnil)

theorem isArchive_of_directory {file : Bytes} {ms : List Archive.Member}
    (h : Archive.directory file = .ok ms) : Archive.isArchive file = .ok true := by
  obtain ⟨found, hend, hfound⟩ := exists_of_bind_eq_ok h
  rw [Archive.isArchive, hend]
  cases found with
  | none => cases hfound
  | some e => rfl

/-- An archive gives the files of its tree in order by the texts of their paths. -/
theorem exists_archiveFiles (h : d.HoldsArchive lib p tree) :
    ∃ files : List (Place × Bytes),
      Loading.filesAt lib d p = .ok (files.map fun f => .ok (pathText f.1, f.2)) ∧
      files.Perm tree.files ∧ files.Pairwise fun f g => Text.le (pathText f.1) (pathText g.1) := by
  obtain ⟨hsuffix, content, hlook, ms, hms, hmembers⟩ := h
  have hsorted := List.mergeSort_perm ms fun a b => Text.le a.name b.name
  have hperm := (perm_fileMembers lib content.toBytes hsorted).trans hmembers
  -- the members in order stand for the files of the tree in an order of their own
  obtain ⟨files, heq, hfiles⟩ := (congrFun₂ (List.eq_map_comp_perm _) _ _).mpr hperm
  refine ⟨files, ?_, hfiles, ?_⟩
  · have hlook : d.look? p.toText = .ok (some (.file content)) := by
      rw [Disk.look?, hlook]
    rw [Loading.filesAt, hlook]
    simp only [if_pos hsuffix, isArchive_of_directory hms, Loading.archiveFiles, hms]
    rw [filterMap_memberFile fun m hm => name_ne_nil_of_perm hmembers (hsorted.mem_iff.1 hm), heq,
      List.map_map]
    refine congrArg _ (List.map_congr_left fun f hf => ?_)
    obtain ⟨hne, hnames⟩ := tree.named f (hfiles.mem_iff.1 hf)
    simp only [Function.comp_apply, fileOfMember, toText_pathText hne hnames]
  · have hle : ∀ a b, Text.le a b = true ↔ ¬ b < a := fun _ _ => le_eq_true_iff
    have hnames := List.pairwise_mergeSort
      (fun a b c => le_trans_of_iff hle a.name b.name c.name)
      (fun a b => le_total_of_iff hle a.name b.name) ms
    have hpairs := pairwise_fileMembers lib content.toBytes hnames
    rw [heq] at hpairs
    exact List.pairwise_map.1 hpairs

/-! ### Both readers -/

theorem path_unitOfFile (f : Place × Bytes) : (unitOfFile f).path = pathText f.1 := rfl

/-- Of the same files, in order by their texts, there is one list only. -/
theorem eq_of_pairwise_pathText {fs gs : List (Place × Bytes)} (hfs : fs ⊆ tree.files)
    (hperm : fs.Perm gs) (hf : fs.Pairwise fun f g => Text.le (pathText f.1) (pathText g.1))
    (hg : gs.Pairwise fun f g => Text.le (pathText f.1) (pathText g.1)) : fs = gs := by
  refine hperm.eq_of_pairwise (fun f g hfmem hgmem hfg hgf => ?_) hf hg
  have hfmem := hfs hfmem
  have hgmem := hfs (hperm.mem_iff.2 hgmem)
  rw [le_eq_true_iff, not_lt] at hfg hgf
  have hplace := pathText_inj (tree.named f hfmem) (tree.named g hgmem) (le_antisymm hfg hgf)
  exact List.inj_on_of_nodup_map tree.distinct hfmem hgmem hplace

/-- Files of a tree give the same units in both orders exactly if no two are tangled. -/
theorem map_unitOfFile_eq_iff {fs gs : List (Place × Bytes)} (hfs : fs ⊆ tree.files)
    (hperm : fs.Perm gs) (hf : fs.Pairwise fun f g => Disk.placeLe f.1 g.1)
    (hg : gs.Pairwise fun f g => Text.le (pathText f.1) (pathText g.1)) :
    fs.map unitOfFile = gs.map unitOfFile ↔ ∀ f ∈ fs, ∀ g ∈ fs, ¬ Tangled f.1 g.1 := by
  have hslash : ∀ a ∈ fs.map Prod.fst, ∀ n ∈ a, '/' ∉ n := by
    intro a ha n hn
    obtain ⟨f, hf, rfl⟩ := List.mem_map.1 ha
    exact ((tree.named f (hfs hf)).2 n hn).no_separator
  have htangled := pairwise_pathText_iff hslash (List.pairwise_map.2 hf)
  rw [List.pairwise_map, List.forall_mem_map] at htangled
  simp only [List.forall_mem_map] at htangled
  rw [← htangled]
  constructor
  · -- a unit shows the path of its file, so equal units put the paths in one order
    intro heq
    have hpaths := congrArg (List.map SourceUnit.path) heq
    simp only [List.map_map, Function.comp_def, path_unitOfFile] at hpaths
    have hsorted : (gs.map fun f => pathText f.1).Pairwise fun a b => Text.le a b :=
      List.pairwise_map.2 hg
    rw [← hpaths] at hsorted
    exact List.pairwise_map.1 hsorted
  · intro htexts
    rw [eq_of_pairwise_pathText hfs hperm htexts hg]

/-- A directory and an archive that hold the same tree both give the units of the files
that are read.  They give them in the same order exactly if no two of these files are
tangled. -/
theorem directory_eq_archive_iff {e : Disk} {q : Path} (included excluded : List Text)
    (hdirectory : d.HoldsBelow p tree) (harchive : e.HoldsArchive lib q tree) :
    ∃ us vs, (Loading.ofPath lib d (Selection.ofTexts included excluded) p).result = .ok us ∧
      (Loading.ofPath lib e (Selection.ofTexts included excluded) q).result = .ok vs ∧
      us.Perm (unitsOf included excluded tree.files) ∧
      vs.Perm (unitsOf included excluded tree.files) ∧
      (us = vs ↔ ∀ f ∈ tree.files, ∀ g ∈ tree.files,
        IsRead included excluded f → IsRead included excluded g → ¬ Tangled f.1 g.1) := by
  obtain ⟨fs, hfs, hfperm, hplaces⟩ := exists_directoryFiles hdirectory
  obtain ⟨gs, hgs, hgperm, htexts⟩ := exists_archiveFiles harchive
  have hus := result_ofPath included excluded hfs
  have hvs := result_ofPath included excluded hgs
  refine ⟨_, _, hus, hvs, (hfperm.filter _).map _, (hgperm.filter _).map _, ?_⟩
  have hsub : fs.filter (fun f => IsRead included excluded f) ⊆ tree.files := fun f hf =>
    hfperm.mem_iff.1 (List.mem_filter.1 hf).1
  rw [unitsOf, unitsOf, map_unitOfFile_eq_iff hsub ((hfperm.trans hgperm.symm).filter _)
    (hplaces.filter _) (htexts.filter _)]
  simp only [List.mem_filter, decide_eq_true_eq, hfperm.mem_iff]
  exact ⟨fun h f hf g hg hfr hgr => h f ⟨hf, hfr⟩ g ⟨hg, hgr⟩,
    fun h f hf g hg => h f hf.1 g hg.1 hf.2 hg.2⟩

/-! ### A directory and a hyphen -/

/-- A library that unpacks nothing with the help of others. -/
def plainLibrary : Archive.Library :=
  ⟨fun _ => none, fun _ _ => none, true, false, 0x7FFFFFFFFFFFFFFF⟩

/-- A file in a directory, and one whose name is that of the directory with more after a
hyphen. -/
def hyphenTree : FileTree where
  files := [(["a".toList, "B.java".toList], Utf8.encode "class B".toList),
    (["a-c.java".toList], Utf8.encode "class C".toList)]
  distinct := by decide
  named := by decide

/-- An archive of these two files. -/
def hyphenArchive : Bytes :=
  -- the headers and contents of the members
  [80, 75, 3, 4, 20, 0, 0, 0, 0, 0, 0, 0, 33, 0, 41, 245, 58, 169, 7, 0, 0, 0, 7, 0, 0, 0, 8, 0,
    0, 0, 97, 45, 99, 46, 106, 97, 118, 97, 99, 108, 97, 115, 115, 32, 67,
    80, 75, 3, 4, 20, 0, 0, 0, 0, 0, 0, 0, 33, 0, 191, 197, 61, 222, 7, 0, 0, 0, 7, 0, 0, 0, 8, 0,
    0, 0, 97, 47, 66, 46, 106, 97, 118, 97, 99, 108, 97, 115, 115, 32, 66] ++
  -- the directory and the end record
  [80, 75, 1, 2, 20, 3, 20, 0, 0, 0, 0, 0, 0, 0, 33, 0, 41, 245, 58, 169, 7, 0, 0, 0, 7, 0, 0, 0,
    8, 0, 0, 0, 0, 0, 0, 0, 0, 0, 0, 0, 128, 1, 0, 0, 0, 0, 97, 45, 99, 46, 106, 97, 118, 97,
    80, 75, 1, 2, 20, 3, 20, 0, 0, 0, 0, 0, 0, 0, 33, 0, 191, 197, 61, 222, 7, 0, 0, 0, 7, 0, 0, 0,
    8, 0, 0, 0, 0, 0, 0, 0, 0, 0, 0, 0, 128, 1, 45, 0, 0, 0, 97, 47, 66, 46, 106, 97, 118, 97,
    80, 75, 5, 6, 0, 0, 0, 0, 2, 0, 2, 0, 108, 0, 0, 0, 90, 0, 0, 0, 0, 0]

/-- A disk with the files in a directory and the archive beside it. -/
def hyphenDisk : Disk :=
  ⟨[], [(["src".toList], .directory), (["src".toList, "a".toList], .directory),
    (["src".toList, "a".toList, "B.java".toList], .file (.bytes (Utf8.encode "class B".toList))),
    (["src".toList, "a-c.java".toList], .file (.bytes (Utf8.encode "class C".toList))),
    (["src.zip".toList], .file (.bytes hyphenArchive))]⟩

theorem hyphenDisk_holdsBelow : hyphenDisk.HoldsBelow ⟨[], ["src".toList]⟩ hyphenTree := by
  have hd : (hyphenDisk.entries.map Prod.fst).Nodup := by decide
  refine ⟨hd, ["src".toList], by rfl, by rfl, fun names bs => ?_⟩
  constructor
  · intro hmem
    simp only [hyphenTree, List.mem_cons, List.not_mem_nil, or_false] at hmem
    rcases hmem with hmem | hmem
    · cases hmem
      exact ⟨by simp, _, rfl, rfl⟩
    · cases hmem
      exact ⟨by simp, _, rfl, rfl⟩
  · rintro ⟨-, content, hentry, rfl⟩
    have hmem := (entry?_eq_some_iff hd (by simp)).1 hentry
    have hfile : names = ["a".toList, "B.java".toList] ∧
          content = .bytes (Utf8.encode "class B".toList) ∨
        names = ["a-c.java".toList] ∧ content = .bytes (Utf8.encode "class C".toList) := by
      simpa [hyphenDisk] using hmem
    rcases hfile with ⟨rfl, rfl⟩ | ⟨rfl, rfl⟩
    · exact List.mem_cons_self
    · exact List.mem_cons_of_mem _ List.mem_cons_self

theorem fileMembers_hyphenArchive :
    (Archive.directory hyphenArchive).map (Archive.fileMembers plainLibrary hyphenArchive) =
      .ok [("a-c.java".toList, .ok (Utf8.encode "class C".toList)),
        ("a/B.java".toList, .ok (Utf8.encode "class B".toList))] := by
  decide +kernel

theorem hyphenDisk_holdsArchive :
    hyphenDisk.HoldsArchive plainLibrary ⟨[], ["src.zip".toList]⟩ hyphenTree := by
  refine ⟨by decide +kernel, .bytes hyphenArchive, by rfl, ?_⟩
  have hmembers := fileMembers_hyphenArchive
  cases hms : Archive.directory hyphenArchive with
  | error e =>
      rw [hms] at hmembers
      cases hmembers
  | ok ms =>
      rw [hms] at hmembers
      refine ⟨ms, hms, ?_⟩
      change (Archive.fileMembers plainLibrary hyphenArchive ms).Perm _
      rw [Except.ok.inj hmembers]
      exact List.Perm.swap _ _ _

/-- The directory gives the file in the inner directory first and the archive the other
one, because a hyphen comes before a separator. -/
theorem directory_eq_archive_iff_hyphen :
    hyphenDisk.HoldsBelow ⟨[], ["src".toList]⟩ hyphenTree ∧
    hyphenDisk.HoldsArchive plainLibrary ⟨[], ["src.zip".toList]⟩ hyphenTree ∧
    ∃ us vs,
      (Loading.ofPath plainLibrary hyphenDisk (Selection.ofTexts [] [])
        ⟨[], ["src".toList]⟩).result = .ok us ∧
      (Loading.ofPath plainLibrary hyphenDisk (Selection.ofTexts [] [])
        ⟨[], ["src.zip".toList]⟩).result = .ok vs ∧
      us.Perm vs ∧ us ≠ vs := by
  refine ⟨hyphenDisk_holdsBelow, hyphenDisk_holdsArchive, ?_⟩
  obtain ⟨us, vs, hus, hvs, huperm, hvperm, hiff⟩ :=
    directory_eq_archive_iff [] [] hyphenDisk_holdsBelow hyphenDisk_holdsArchive
  refine ⟨us, vs, hus, hvs, huperm.trans hvperm.symm, fun heq => ?_⟩
  have hfirst : Tangled ["a".toList, "B.java".toList] ["a-c.java".toList] :=
    .beside (by decide : '-' < '/')
  exact hiff.1 heq _ List.mem_cons_self _ (List.mem_cons_of_mem _ List.mem_cons_self)
    (by decide) (by decide) hfirst

end DocPress
