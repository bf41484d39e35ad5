import DocPress.Html.Page
import DocPress.Proofs.Text.Lines
import DocPress.Storage.Path
import DocPress.Text.Case
import Mathlib.Data.List.Nodup
import Mathlib.Data.List.Perm.Subperm
import Mathlib.Data.List.ReduceOption

/-!
# Page names

Names are given out file by file.  `IsNameFor` says which name a file gets when some
names are in use: the plain one if it is free, else the one with the least number that
is free.  A number that is free is always found, because a batch of numbered names that
is longer than the names in use cannot be all in use (`exists_free_numberedName`).

The main statement is that all pages of a project have such names, that no two of
them are equal in any letter case, and that each is one name below the directory of
the pages, so no page replaces another and none stands elsewhere.
-/

namespace DocPress

namespace Text

/-! ### Letter case -/

/-- In the first 128 characters only letters have another lower case. -/
theorem lowerFrom_eq_map {t : Text} (h : ∀ c ∈ t, c.toNat < 128) (before : Text) :
    lowerFrom before t = t.map Char.toLower := by
  induction t generalizing before with
  | nil => rfl
  | cons c t ih =>
      have hc : c.toNat < 128 := h c List.mem_cons_self
      have hsigma : c.toNat ≠ 0x3A3 := by omega
      rw [lowerFrom, ih (fun d hd => h d (List.mem_cons_of_mem _ hd))]
      simp only [if_neg hsigma, lowerChar, if_pos hc, List.map_cons, List.singleton_append]

end Text

namespace Html

open Text (lower)

/-! ### The rule for names -/

/-- A name that is none of some names in any letter case. -/
def IsFree (used : List Text) (name : Text) : Prop := ∀ n ∈ used, lower n ≠ lower name

/-- The name of the page with a key when some names are in use. -/
inductive IsNameFor (used : List Text) (key : Text) : Text → Prop
  | plain : IsFree used (plainName key) → IsNameFor used key (plainName key)
  | numbered (k : Nat) : ¬ IsFree used (plainName key) → 2 ≤ k → IsFree used (numberedName key k) →
      (∀ j, 2 ≤ j → j < k → ¬ IsFree used (numberedName key j)) →
      IsNameFor used key (numberedName key k)

/-- The names that are in use before the page of a file gets its name. -/
def namesBefore (names : List (Option Text)) (i : Nat) : List Text :=
  [indexPage, stylesheetPath] ++ (names.take i).reduceOption

/-- A name of the characters of a key, with the ending of a page. -/
def IsPageFile (name : Text) : Prop :=
  ∃ stem, name = stem ++ ".html".toList ∧ stem ≠ [] ∧ ∀ c ∈ stem, isKeyChar c = true

/-- The names of the pages of some files. -/
structure IsNaming (files : List FileDoc) (names : List (Option Text)) : Prop where
  /-- Every file without declarations, and no other, has no name. -/
  aligned : List.Forall₂ (fun f name => name = none ↔ f.classes = []) files names
  /-- A name is the first of its key that is free. -/
  named : ∀ i f name, files[i]? = some f → names[i]? = some (some name) →
    IsNameFor (namesBefore names i) (pageKey f.path) name
  /-- Names differ in more than letter case, also from those of other files. -/
  distinct : ([indexPage, stylesheetPath] ++ names.reduceOption).Pairwise fun a b =>
    lower a ≠ lower b
  characters : ∀ name ∈ names.reduceOption, IsPageFile name
  /-- A page stands in the directory of the pages and not below or above it. -/
  placed : ∀ name ∈ names.reduceOption, ∀ root : Path,
    root / Path.ofText name = ⟨root.root, root.parts ++ [name]⟩

/-- The pages of a project: the index, and one for every file with declarations. -/
structure IsPageSet (p : Project) (pages : List (Text × Text)) : Prop where
  names : pages.map Prod.fst = indexPage :: (pageNames p.files).reduceOption
  contents : pages.map Prod.snd = (indexMarkup p).render ::
    (p.files.filter fun f => !f.classes.isEmpty).map fun f => (filePage p f).render
  count : pages.length = 1 + (p.files.filter fun f => !f.classes.isEmpty).length
  /-- No page takes the place of another. -/
  distinct : pages.Pairwise fun a b => lower a.1 ≠ lower b.1

/-! ### Characters of names -/

theorem toNat_lt_of_isKeyChar {c : Char} (h : isKeyChar c = true) : c.toNat < 128 := by
  delta isKeyChar Char.isAlphanum Char.isAlpha Char.isUpper Char.isLower Char.isDigit at h
  simp only [Bool.or_eq_true, Bool.and_eq_true, decide_eq_true_eq, beq_iff_eq, ge_iff_le,
    UInt32.le_iff_toNat_le] at h
  change ((((65 ≤ c.toNat ∧ c.toNat ≤ 90) ∨ (97 ≤ c.toNat ∧ c.toNat ≤ 122)) ∨
    (48 ≤ c.toNat ∧ c.toNat ≤ 57)) ∨ c = '_') ∨ c = '-' at h
  rcases h with (h | rfl) | rfl
  · omega
  · decide
  · decide

theorem isKeyChar_of_mem_pageKey {path : Text} : ∀ c ∈ pageKey path, isKeyChar c = true := by
  have hmap : ∀ c ∈ (trimSlashes path).map fun c => if isKeyChar c then c else '_',
      isKeyChar c = true := by
    intro c hc
    obtain ⟨d, -, rfl⟩ := List.mem_map.1 hc
    by_cases hd : isKeyChar d = true
    · rwa [if_pos hd]
    · rw [if_neg hd]
      rfl
  rw [pageKey]
  split
  · exact List.all_eq_true.1 (by decide)
  · exact hmap

theorem pageKey_ne_nil (path : Text) : pageKey path ≠ [] := by
  rw [pageKey]
  split
  · simp
  · next hne => exact hne

theorem isPageFile_plainName (path : Text) : IsPageFile (plainName (pageKey path)) :=
  ⟨pageKey path, rfl, pageKey_ne_nil path, isKeyChar_of_mem_pageKey⟩

theorem isDigit_of_mem_ofNat {n : Nat} {c : Char} (h : c ∈ Text.ofNat n) : c.isDigit = true :=
  Nat.isDigit_of_mem_toDigits (by decide) (by decide) h

theorem isPageFile_numberedName (path : Text) (n : Nat) :
    IsPageFile (numberedName (pageKey path) n) := by
  refine ⟨pageKey path ++ '-' :: Text.ofNat n, by simp [numberedName], by simp, fun c hc => ?_⟩
  rcases List.mem_append.1 hc with hc | hc
  · exact isKeyChar_of_mem_pageKey c hc
  · rcases List.mem_cons.1 hc with rfl | hc
    · decide
    · simp [isKeyChar, Char.isAlphanum, isDigit_of_mem_ofNat hc]

theorem IsNameFor.isPageFile {used : List Text} {path name : Text}
    (h : IsNameFor used (pageKey path) name) : IsPageFile name := by
  cases h with
  | plain _ => exact isPageFile_plainName path
  | numbered k _ _ _ _ => exact isPageFile_numberedName path k

theorem IsNameFor.isFree {used : List Text} {key name : Text} (h : IsNameFor used key name) :
    IsFree used name := by
  cases h with
  | plain hfree => exact hfree
  | numbered k _ _ hfree _ => exact hfree

/-- Names of pages are compared as all texts are. -/
theorem IsPageFile.lower_eq {name : Text} (h : IsPageFile name) : lower name = foldCase name := by
  obtain ⟨stem, rfl, -, hstem⟩ := h
  have hending : ∀ c ∈ ".html".toList, c.toNat < 128 := by simp
  refine Text.lowerFrom_eq_map (fun c hc => ?_) []
  rcases List.mem_append.1 hc with hc | hc
  · exact toNat_lt_of_isKeyChar (hstem c hc)
  · exact hending c hc

/-- A page file is one name on the way through directories. -/
theorem IsPageFile.ofText_eq {name : Text} (h : IsPageFile name) :
    Path.ofText name = ⟨[], [name]⟩ := by
  obtain ⟨stem, rfl, hne, hstem⟩ := h
  have hslash : '/' ∉ stem ++ ".html".toList := by
    intro hmem
    rcases List.mem_append.1 hmem with hmem | hmem
    · exact absurd (hstem _ hmem) (by decide)
    · exact absurd hmem (by decide)
  have hroot : Path.rootOf (stem ++ ".html".toList) = [] := by
    cases stem with
    | nil => exact absurd rfl hne
    | cons c stem =>
        have hc : c ≠ '/' := fun heq => hslash (heq ▸ List.mem_cons_self)
        simp [Path.rootOf, hc]
  rw [Path.ofText, hroot, Text.splitAt_of_notMem hslash]
  cases stem <;> simp

/-! ### The least free number -/

theorem ofNat_injective : Function.Injective Text.ofNat := by
  intro m n h
  have hread := congrArg (fun digits => Nat.ofDigitChars 10 digits 0) h
  simpa [Text.ofNat, Nat.ofDigitChars_toDigits] using hread

theorem toLower_of_isDigit {c : Char} (h : c.isDigit = true) : c.toLower = c := by
  refine dif_neg ?_
  rintro ⟨hge, -⟩
  simp only [Char.isDigit, Bool.and_eq_true, decide_eq_true_eq] at h
  exact absurd (UInt32.le_trans hge h.2) (by decide)

theorem lower_numberedName_injective (path : Text) :
    Function.Injective fun n => lower (numberedName (pageKey path) n) := by
  intro m n h
  have hdigits : ∀ n, foldCase (numberedName (pageKey path) n) =
      foldCase (pageKey path) ++ '-' :: (Text.ofNat n ++ ".html".toList) := by
    intro n
    have hsame : (Text.ofNat n).map Char.toLower = Text.ofNat n :=
      (List.map_congr_left fun c hc => toLower_of_isDigit (isDigit_of_mem_ofNat hc)).trans
        (List.map_id _)
    simp only [foldCase, numberedName, List.map_append, List.map_cons, hsame, List.append_assoc,
      List.cons_append]
    rfl
  dsimp only at h
  rw [(isPageFile_numberedName path m).lower_eq, (isPageFile_numberedName path n).lower_eq,
    hdigits, hdigits] at h
  have htail := (List.cons.inj (List.append_cancel_left h)).2
  exact ofNat_injective (List.append_cancel_right htail)

/-- Among more numbers than names in use one gives a free name. -/
theorem exists_free_numberedName (used : List Text) (path : Text) (n : Nat) :
    ∃ k, n ≤ k ∧ k ≤ n + used.length ∧ IsFree used (numberedName (pageKey path) k) := by
  by_contra hnone
  have hused : ∀ k ∈ List.range' n (used.length + 1),
      lower (numberedName (pageKey path) k) ∈ used.map lower := by
    intro k hk
    rw [List.mem_range'_1] at hk
    by_contra hnot
    refine hnone ⟨k, hk.1, by omega, fun t ht heq => hnot ?_⟩
    exact List.mem_map.2 ⟨t, ht, heq⟩
  have hnodup : ((List.range' n (used.length + 1)).map fun k =>
      lower (numberedName (pageKey path) k)).Nodup :=
    List.Nodup.map (lower_numberedName_injective path) List.nodup_range'
  have hle := hnodup.length_le_of_subset fun t ht => by
    obtain ⟨k, hk, rfl⟩ := List.mem_map.1 ht
    exact hused k hk
  simp only [List.length_map, List.length_range'] at hle
  omega

/-- The search goes up from a number and passes over names in use only. -/
theorem exists_freeNumbered_eq (taken : List Text) (key : Text) (fuel n : Nat) :
    ∃ k, n ≤ k ∧ freeNumbered taken key fuel n = numberedName key k ∧
      (∀ j, n ≤ j → j < k → foldCase (numberedName key j) ∈ taken) ∧
      (k < n + fuel → foldCase (numberedName key k) ∉ taken) ∧ k ≤ n + fuel := by
  induction fuel generalizing n with
  | zero => exact ⟨n, Nat.le_refl n, rfl, fun j h1 h2 => absurd h1 (by omega), by omega, by omega⟩
  | succ fuel ih =>
      rw [freeNumbered]
      by_cases hmem : foldCase (numberedName key n) ∈ taken
      · rw [if_pos (List.contains_iff_mem.2 hmem)]
        obtain ⟨k, hle, heq, hbelow, hfree, hmost⟩ := ih (n + 1)
        refine ⟨k, by omega, heq, fun j h1 h2 => ?_, fun hlt => hfree (by omega), by omega⟩
        rcases Nat.eq_or_lt_of_le h1 with rfl | h1
        · exact hmem
        · exact hbelow j h1 h2
      · rw [if_neg fun h => hmem (List.contains_iff_mem.1 h)]
        exact ⟨n, Nat.le_refl n, rfl, fun j h1 h2 => absurd h1 (by omega), fun _ => hmem, by omega⟩

/-- The list that is kept holds the names in use in lower case. -/
theorem isFree_iff {taken used : List Text} (h : taken.Perm (used.map lower)) {name : Text}
    (hname : IsPageFile name) : IsFree used name ↔ foldCase name ∉ taken := by
  rw [← hname.lower_eq, h.mem_iff, List.mem_map]
  exact ⟨fun hfree ⟨n, hn, heq⟩ => hfree n hn heq, fun hnot n hn heq => hnot ⟨n, hn, heq⟩⟩

theorem isNameFor_freshName {taken used : List Text} (h : taken.Perm (used.map lower))
    (path : Text) : IsNameFor used (pageKey path) (freshName taken path) := by
  have hplain := isFree_iff h (isPageFile_plainName path)
  have hnumbered := fun n => isFree_iff h (isPageFile_numberedName path n)
  rw [freshName]
  by_cases hmem : foldCase (plainName (pageKey path)) ∈ taken
  · rw [if_pos (List.contains_iff_mem.2 hmem)]
    obtain ⟨k, hle, heq, hbelow, hfree, hmost⟩ :=
      exists_freeNumbered_eq taken (pageKey path) taken.length 2
    have hbelow' : ∀ j, 2 ≤ j → j < k → ¬ IsFree used (numberedName (pageKey path) j) := by
      intro j h1 h2 hj
      exact (hnumbered j).1 hj (hbelow j h1 h2)
    rw [heq]
    refine .numbered k (fun hplain' => hplain.1 hplain' hmem) hle ?_ hbelow'
    -- the search ends at a free name, also where it has tried as many as there are in use
    rcases Nat.lt_or_ge k (2 + taken.length) with hlt | hge
    · exact (hnumbered k).2 (hfree hlt)
    · obtain ⟨m, hm, hmost', hmfree⟩ := exists_free_numberedName used path 2
      have hlength : taken.length = used.length := by rw [h.length_eq, List.length_map]
      rcases Nat.lt_or_ge m k with hlt | hge'
      · exact absurd hmfree (hbelow' m hm hlt)
      · obtain rfl : m = k := by omega
        exact hmfree
  · rw [if_neg fun hc => hmem (List.contains_iff_mem.1 hc)]
    exact .plain (hplain.2 hmem)

/-! ### Names given out file by file -/

/-- Names given out to files in order, each file with the names in use before it. -/
inductive Assigned : List Text → List (Text × Bool) → List (Option Text) → Prop
  | nil {used : List Text} : Assigned used [] []
  | page {used : List Text} {path name : Text} {files names} : IsNameFor used (pageKey path) name →
      Assigned (used ++ [name]) files names →
      Assigned used ((path, true) :: files) (some name :: names)
  | bare {used : List Text} {path : Text} {files names} : Assigned used files names →
      Assigned used ((path, false) :: files) (none :: names)

theorem assigned_assignFrom {taken used : List Text} (h : taken.Perm (used.map lower))
    (files : List (Text × Bool)) : Assigned used files (assignFrom taken files) := by
  induction files generalizing taken used with
  | nil => exact .nil
  | cons file files ih =>
      obtain ⟨path, documented⟩ := file
      cases documented with
      | false => exact .bare (ih h)
      | true =>
          have hname := isNameFor_freshName h path
          refine .page hname (ih ?_)
          rw [List.map_append, List.map_singleton, hname.isPageFile.lower_eq]
          exact (h.cons _).trans (List.perm_append_singleton _ _).symm

variable {used : List Text} {files : List (Text × Bool)} {names : List (Option Text)}

theorem Assigned.forall₂ (h : Assigned used files names) :
    List.Forall₂ (fun file name => name = none ↔ file.2 = false) files names := by
  induction h with
  | nil => exact .nil
  | page _ _ ih => exact .cons (by simp) ih
  | bare _ ih => exact .cons (by simp) ih

theorem Assigned.isNameFor (h : Assigned used files names) {i : Nat} {path name : Text} {b : Bool}
    (hfile : files[i]? = some (path, b)) (hname : names[i]? = some (some name)) :
    IsNameFor (used ++ (names.take i).reduceOption) (pageKey path) name := by
  induction h generalizing i with
  | nil => cases hfile
  | page hfirst _ ih =>
      cases i with
      | zero =>
          cases hfile
          cases hname
          simpa using hfirst
      | succ i => simpa using ih hfile hname
  | bare _ ih =>
      cases i with
      | zero => cases hname
      | succ i => simpa using ih hfile hname

theorem Assigned.pairwise (h : Assigned used files names)
    (hused : used.Pairwise fun a b => lower a ≠ lower b) :
    (used ++ names.reduceOption).Pairwise fun a b => lower a ≠ lower b := by
  induction h with
  | nil => simpa using hused
  | page hname _ ih =>
      have hmore := ih (List.pairwise_append.2 ⟨hused, List.pairwise_singleton _ _,
        fun n hn m hm => by
          obtain rfl := List.mem_singleton.1 hm
          exact hname.isFree n hn⟩)
      simpa using hmore
  | bare _ ih => simpa using ih hused

theorem Assigned.isPageFile (h : Assigned used files names) :
    ∀ name ∈ names.reduceOption, IsPageFile name := by
  induction h with
  | nil => simp
  | page hname _ ih => exact List.forall_mem_cons.2 ⟨hname.isPageFile, ih⟩
  | bare _ ih => exact ih

theorem isNaming_pageNames (files : List FileDoc) : IsNaming files (pageNames files) := by
  have hreserved : [indexPage, stylesheetPath].Perm ([indexPage, stylesheetPath].map lower) := by
    have hindex : lower indexPage = indexPage := by decide
    have hstyle : lower stylesheetPath = stylesheetPath := by decide
    rw [List.map_cons, List.map_singleton, hindex, hstyle]
  have hassigned : Assigned [indexPage, stylesheetPath]
      (files.map fun f => (f.path, !f.classes.isEmpty)) (pageNames files) :=
    assigned_assignFrom hreserved _
  constructor
  · have haligned := List.forall₂_map_left_iff.1 hassigned.forall₂
    refine haligned.imp fun f name h => ?_
    rw [h]
    simp
  · intro i f name hfile hname
    refine hassigned.isNameFor (b := !f.classes.isEmpty) ?_ hname
    rw [List.getElem?_map, hfile]
    rfl
  · exact hassigned.pairwise (by decide)
  · exact hassigned.isPageFile
  · intro name hname root
    rw [(hassigned.isPageFile name hname).ofText_eq]
    rfl

/-! ### The pages -/

/-- Of files and names that are aligned, every file with a name makes a page. -/
theorem map_pagesOf {p : Project} {files : List FileDoc}
    (h : List.Forall₂ (fun f name => name = none ↔ f.classes = []) files names) :
    let made := (files.zip names).filterMap fun entry =>
      entry.2.map fun name => (name, filePage p entry.1)
    made.map Prod.fst = names.reduceOption ∧
      made.map Prod.snd = (files.filter fun f => !f.classes.isEmpty).map (filePage p) := by
  induction h with
  | nil => exact ⟨rfl, rfl⟩
  | @cons f name files names hname _ ih =>
      cases name with
      | none =>
          have hempty : f.classes = [] := hname.1 rfl
          simpa [hempty] using ih
      | some name =>
          have hsome : f.classes ≠ [] := fun h => absurd (hname.2 h) (by simp)
          simpa [hsome] using ih

theorem isPageSet_renderPages (p : Project) : IsPageSet p (renderPages p) := by
  have hnaming := isNaming_pageNames p.files
  obtain ⟨hfst, hsnd⟩ := map_pagesOf (p := p) hnaming.aligned
  have hnames : (renderPages p).map Prod.fst = indexPage :: (pageNames p.files).reduceOption := by
    rw [← hfst, renderPages, pages, List.map_map]
    rfl
  have hcontents : (renderPages p).map Prod.snd = (indexMarkup p).render ::
      (p.files.filter fun f => !f.classes.isEmpty).map fun f => (filePage p f).render := by
    have hrendered := congrArg (List.map Markup.render) hsnd
    rw [List.map_map, List.map_map] at hrendered
    rw [renderPages, pages, List.map_map, List.map_cons]
    exact congrArg _ hrendered
  refine ⟨hnames, hcontents, ?_, ?_⟩
  · have hlength := congrArg List.length hcontents
    simpa [Nat.add_comm] using hlength
  · -- leaving out the stylesheet, which is written after the pages
    have hsublist : (indexPage :: (pageNames p.files).reduceOption).Sublist
        ([indexPage, stylesheetPath] ++ (pageNames p.files).reduceOption) :=
      .cons_cons _ (List.sublist_cons_self _ _)
    have hpairwise := hnaming.distinct.sublist hsublist
    rw [← hnames, List.pairwise_map] at hpairwise
    exact hpairwise

theorem lookup_eq_some_of_mem {pages : List (Text × Text)} (h : (pages.map Prod.fst).Nodup)
    {name page : Text} (hmem : (name, page) ∈ pages) : pages.lookup name = some page := by
  obtain ⟨before, after, rfl⟩ := List.append_of_mem hmem
  refine List.lookup_eq_some_iff.2 ⟨before, after, rfl, fun entry hentry => bne_iff_ne.2 ?_⟩
  rw [List.map_append, List.nodup_append] at h
  exact (h.2.2 entry.1 (List.mem_map_of_mem hentry) name List.mem_cons_self).symm

theorem nodup_map_fst_renderPages (p : Project) : ((renderPages p).map Prod.fst).Nodup := by
  rw [List.Nodup, List.pairwise_map]
  exact (isPageSet_renderPages p).distinct.imp fun hne heq => hne (congrArg lower heq)

/-- Under the name of a page stands the page of the file that has the name. -/
theorem lookup_renderPages {p : Project} {i : Nat} {f : FileDoc} {name : Text}
    (hfile : p.files[i]? = some f) (hname : (pageNames p.files)[i]? = some (some name)) :
    (renderPages p).lookup name = some (filePage p f).render := by
  have hzip : (f, some name) ∈ p.files.zip (pageNames p.files) :=
    List.mem_of_getElem? (List.getElem?_zip_eq_some.2 ⟨hfile, hname⟩)
  have hpage : (name, filePage p f) ∈ pages p :=
    List.mem_cons_of_mem _ (List.mem_filterMap.2 ⟨_, hzip, rfl⟩)
  exact lookup_eq_some_of_mem (nodup_map_fst_renderPages p) (List.mem_map.2 ⟨_, hpage, rfl⟩)

/-- Whatever the paths of files are, their pages get names that are free when they are
chosen, apart in every letter case and in the directory of the pages; and a project
has its index and exactly one page for every file with declarations, in this order. -/
theorem pages_named_apart :
    (∀ files, IsNaming files (pageNames files)) ∧ ∀ p, IsPageSet p (renderPages p) :=
  ⟨isNaming_pageNames, isPageSet_renderPages⟩

example : assignNames [("a".toList, true), ("/A".toList, true), ("a-2".toList, true),
    ("b".toList, false), ("index".toList, true)] =
    [some "a.html".toList, some "A-2.html".toList, some "a-2-2.html".toList, none,
      some "index-2.html".toList] := by decide

end Html
end DocPress
