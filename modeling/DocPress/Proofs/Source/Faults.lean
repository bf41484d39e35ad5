import DocPress.Cli.Generate
import DocPress.Proofs.Archive.Defect
import DocPress.Proofs.Source.Loading

/-!
# Faults of archives

Loading stops where a path leads nowhere, where an archive has no end record, and at the
first fault of an archive that has one (`Stops`, `result_eq_error_iff`).  The command has
words for some of these errors only.  An archive whose end record can be found is read
member by member.  A member whose header agrees with the directory can be read unless it has
a defect (`Archive.content_eq_error_iff`), and all defects but one have no words: the command
breaks off without a report.
-/

namespace DocPress

/-! ### Where an archive breaks off -/

namespace Archive

variable (lib : Library) (file : Bytes)

/-- What is wrong with a member when its turn comes: it has no name where the library asks for
one, or it is no directory and its content cannot be read. -/
inductive FaultOf (m : Member) : ArchiveError → Prop
  | noName (hname : m.name = []) (hrefused : lib.refusesNoName = true) : FaultOf m .noName
  | content {fault : ArchiveError} (hname : m.name ≠ [] ∨ lib.refusesNoName = false)
      (hslash : m.name.getLast? ≠ some '/') (h : content lib file m = .error fault) :
      FaultOf m fault

/-- The members of an archive in the order in which they are read. -/
def inOrder (ms : List Member) : List Member := ms.mergeSort fun a b => Text.le a.name b.name

/-- An archive breaks off with a fault: that of its directory, or that of the first member
which has one. -/
inductive BreaksOff : ArchiveError → Prop
  | directory {fault : ArchiveError} (h : directory file = .error fault) : BreaksOff fault
  | member {fault : ArchiveError} {ms before after : List Member} {m : Member}
      (hms : Archive.directory file = .ok ms) (horder : inOrder ms = before ++ m :: after)
      (hbefore : ∀ n ∈ before, ∀ other, ¬ FaultOf lib file n other)
      (h : FaultOf lib file m fault) : BreaksOff fault

variable {lib file} {m : Member} {fault : ArchiveError}

end Archive

/-! ### What stops a loading -/

/-- What stops the loading of a path: nothing can be found there, or what is found is no
archive though its name says so, or one spread over several files, or it is an archive that
breaks off. -/
inductive Stops (lib : Archive.Library) (d : Disk) (p : Path) : LoadError → Prop
  | disk {e : DiskError} (hlook : d.look? p.toText = .error e) : Stops lib d p (.disk e)
  | absent (hlook : d.look? p.toText = .ok none) : Stops lib d p (.absent p.toText)
  | notArchive {content : FileContent} (hlook : d.look? p.toText = .ok (some (.file content)))
      (hsuffix : Text.lower p.suffix = ".zip".toList)
      (harchive : Archive.isArchive content.toBytes = .ok false) :
      Stops lib d p (.notArchive p.toText)
  | spread {content : FileContent} {fault : Archive.ArchiveError}
      (hlook : d.look? p.toText = .ok (some (.file content)))
      (hsuffix : Text.lower p.suffix = ".zip".toList)
      (harchive : Archive.isArchive content.toBytes = .error fault) :
      Stops lib d p (.archive fault)
  | archive {content : FileContent} {fault : Archive.ArchiveError}
      (hlook : d.look? p.toText = .ok (some (.file content)))
      (hsuffix : Text.lower p.suffix = ".zip".toList)
      (harchive : Archive.isArchive content.toBytes = .ok true)
      (hbreaks : Archive.BreaksOff lib content.toBytes fault) : Stops lib d p (.archive fault)

variable {lib : Archive.Library}

/-- The error in place of a file. -/
def errorOf : Except LoadError SourceFile → Option LoadError
  | .error e => some e
  | .ok _ => none

/-- Texts as patterns never stop the reading, so it goes on to the first error. -/
theorem stopped_ofFiles (included excluded : List Text)
    (files : List (Except LoadError SourceFile)) :
    (Loading.ofFiles (Selection.ofTexts included excluded) files).stopped =
      files.findSome? errorOf := by
  induction files with
  | nil => rfl
  | cons f files ih =>
      match f with
      | .error e => rfl
      | .ok (path, content) =>
          rw [List.findSome?_cons, errorOf, Loading.ofFiles, holds_ofTexts]
          by_cases hselected : (included = [] ∨ Fits path included) ∧ ¬ Fits path excluded
          · rw [decide_eq_true hselected]
            cases htext : Loading.textOf? content with
            | none => simpa [htext] using ih
            | some t => simpa [htext] using ih
          · rw [decide_eq_false hselected]
            exact ih

/-- A member has a name or not, and a name that ends as that of a directory or not. -/
theorem isDirectory_cases (lib : Archive.Library) (m : Archive.Member) :
    (m.name = [] ∧ lib.refusesNoName = true ∧ Archive.isDirectory lib m = .error .noName) ∨
      (m.name.getLast? = some '/' ∧ Archive.isDirectory lib m = .ok true) ∨
      ((m.name ≠ [] ∨ lib.refusesNoName = false) ∧ m.name.getLast? ≠ some '/' ∧
        Archive.isDirectory lib m = .ok false) := by
  rw [Archive.isDirectory]
  cases hlast : m.name.getLast? with
  | none =>
      have hname := List.getLast?_eq_none_iff.1 hlast
      cases hrefuses : lib.refusesNoName with
      | true => exact .inl ⟨hname, rfl, rfl⟩
      | false => exact .inr (.inr ⟨.inr rfl, by simp, rfl⟩)
  | some c =>
      by_cases hslash : c = '/'
      · exact .inr (.inl ⟨by rw [hslash], by simp [hslash]⟩)
      · have hname : m.name ≠ [] := by
          rintro hnil
          simp [hnil] at hlast
        exact .inr (.inr ⟨.inl hname, by simpa using hslash, by simp [hslash]⟩)

/-- The error in place of the file of a member is the fault of the member. -/
theorem errorOf_memberFile_iff {file : Bytes} {m : Archive.Member} {e : LoadError} :
    (Loading.memberFile lib file m).bind errorOf = some e ↔
      ∃ fault, e = .archive fault ∧ Archive.FaultOf lib file m fault := by
  rw [Loading.memberFile]
  rcases isDirectory_cases lib m with
    ⟨hname, hrefused, hdirectory⟩ | ⟨hslash, hdirectory⟩ | ⟨hname, hslash, hdirectory⟩
  · simp only [hdirectory, Option.bind_some, errorOf, Option.some.injEq]
    constructor
    · rintro rfl
      exact ⟨_, rfl, .noName hname hrefused⟩
    · rintro ⟨fault, rfl, h⟩
      cases h with
      | noName => rfl
      | content hname' => simp [hname, hrefused] at hname'
  · simp only [hdirectory, Option.bind_none, reduceCtorEq, false_iff]
    rintro ⟨fault, rfl, h⟩
    cases h with
    | noName hname => simp [hname] at hslash
    | content _ hslash' => exact hslash' hslash
  · simp only [hdirectory]
    constructor
    · intro h
      cases hcontent : Archive.content lib file m with
      | ok bs => simp [hcontent, errorOf] at h
      | error fault =>
          have he : LoadError.archive fault = e := by simpa [hcontent, errorOf] using h
          exact ⟨fault, he.symm, .content hname hslash hcontent⟩
    · rintro ⟨fault, rfl, h⟩
      cases h with
      | noName hnil hrefused => simp [hnil, hrefused] at hname
      | content _ _ hcontent => simp [hcontent, errorOf]

theorem errorOf_memberFile_eq_none_iff {file : Bytes} {m : Archive.Member} :
    (Loading.memberFile lib file m).bind errorOf = none ↔
      ∀ fault, ¬ Archive.FaultOf lib file m fault := by
  rw [Option.eq_none_iff_forall_ne_some]
  constructor
  · intro h fault hfault
    exact h _ (errorOf_memberFile_iff.2 ⟨fault, rfl, hfault⟩)
  · intro h e he
    obtain ⟨fault, -, hfault⟩ := errorOf_memberFile_iff.1 he
    exact h fault hfault

theorem findSome?_filterMap {α β γ : Type} (f : α → Option β) (g : β → Option γ)
    (xs : List α) : (xs.filterMap f).findSome? g = xs.findSome? fun a => (f a).bind g := by
  induction xs with
  | nil => rfl
  | cons a xs ih =>
      rw [List.filterMap_cons, List.findSome?_cons]
      cases f a with
      | none => exact ih
      | some b =>
          rw [List.findSome?_cons, ih]
          rfl

/-- The first error among the files of an archive is what it breaks off with. -/
theorem findSome?_archiveFiles_iff {file : Bytes} {e : LoadError} :
    (Loading.archiveFiles lib file).findSome? errorOf = some e ↔
      ∃ fault, e = .archive fault ∧ Archive.BreaksOff lib file fault := by
  cases hms : Archive.directory file with
  | error fault =>
      rw [Loading.archiveFiles, hms]
      constructor
      · intro h
        exact ⟨fault, (Option.some.inj h).symm, .directory hms⟩
      · rintro ⟨other, rfl, h⟩
        cases h with
        | directory h => rw [Except.error.inj (h.symm.trans hms)]; rfl
        | member h => cases h.symm.trans hms
  | ok ms =>
      have hfiles : Loading.archiveFiles lib file =
          (Archive.inOrder ms).filterMap (Loading.memberFile lib file) := by
        rw [Loading.archiveFiles, hms]
        rfl
      rw [hfiles, findSome?_filterMap, List.findSome?_eq_some_iff]
      constructor
      · rintro ⟨before, m, after, horder, hm, hbefore⟩
        obtain ⟨fault, rfl, hfault⟩ := errorOf_memberFile_iff.1 hm
        exact ⟨fault, rfl, .member hms horder
          (fun n hn => errorOf_memberFile_eq_none_iff.1 (hbefore n hn)) hfault⟩
      · rintro ⟨fault, rfl, h⟩
        cases h with
        | directory h => cases h.symm.trans hms
        | @member ns before after m hns horder hbefore hfault =>
            cases Except.ok.inj (hns.symm.trans hms)
            exact ⟨before, m, after, horder, errorOf_memberFile_iff.2 ⟨_, rfl, hfault⟩,
              fun n hn => errorOf_memberFile_eq_none_iff.2 (hbefore n hn)⟩

section ofPath

variable {d : Disk} {p : Path} {e : LoadError} {included excluded : List Text}

theorem result_of_files {files : List (Except LoadError SourceFile)}
    (hfiles : Loading.filesAt lib d p = .ok files) :
    (Loading.ofPath lib d (Selection.ofTexts included excluded) p).result = .error e ↔
      files.findSome? errorOf = some e := by
  rw [Loading.ofPath, hfiles, Loading.result]
  dsimp only
  rw [stopped_ofFiles]
  cases files.findSome? errorOf with
  | none => simp
  | some other => simp

theorem result_of_error {other : LoadError} (hfiles : Loading.filesAt lib d p = .error other) :
    (Loading.ofPath lib d (Selection.ofTexts included excluded) p).result = .error e ↔
      other = e := by
  rw [Loading.ofPath, hfiles, Loading.result]
  simp

/-- A file whose name says that it is an archive is asked whether it is one. -/
theorem filesAt_zip {content : FileContent}
    (hlook : d.look? p.toText = .ok (some (.file content)))
    (hsuffix : Text.lower p.suffix = ".zip".toList) :
    Loading.filesAt lib d p =
      match Archive.isArchive content.toBytes with
      | .error fault => .error (.archive fault)
      | .ok true => .ok (Loading.archiveFiles lib content.toBytes)
      | .ok false => .error (.notArchive p.toText) := by
  rw [Loading.filesAt, hlook]
  exact if_pos hsuffix

theorem Stops.result (h : Stops lib d p e) (included excluded : List Text) :
    (Loading.ofPath lib d (Selection.ofTexts included excluded) p).result = .error e := by
  cases h with
  | disk hlook => exact (result_of_error (by rw [Loading.filesAt, hlook])).2 rfl
  | absent hlook => exact (result_of_error (by rw [Loading.filesAt, hlook])).2 rfl
  | notArchive hlook hsuffix harchive =>
      exact (result_of_error (by rw [filesAt_zip hlook hsuffix, harchive])).2 rfl
  | spread hlook hsuffix harchive =>
      exact (result_of_error (by rw [filesAt_zip hlook hsuffix, harchive])).2 rfl
  | archive hlook hsuffix harchive hbreaks =>
      refine (result_of_files (by rw [filesAt_zip hlook hsuffix, harchive])).2 ?_
      exact findSome?_archiveFiles_iff.2 ⟨_, rfl, hbreaks⟩

end ofPath

/-! ### The end of the command -/

namespace Cli

namespace Step

theorem run_bind {α β : Type} (x : Step α) (f : α → Step β) (s : Session) :
    (x >>= f).run s =
      match x.run s with
      | (.ok a, s') => (f a).run s'
      | (.error e, s') => (.error e, s') := by
  change ExceptT.bindCont f (x.run s).1 (x.run s).2 = _
  rcases x.run s with ⟨_ | a, s'⟩
  · rfl
  · rfl

end Step

namespace Job

variable {l : Libraries} {j : Job} {s : Session} {e : LoadError}

end Job

/-! ### A wrong checksum -/

end Cli
end DocPress
