import DocPress.Proofs.Javadoc.Grouping
import Mathlib.Data.Finset.Basic

/-!
# Comments that do not matter

A comment without documentation changes nothing but the place at which the next line
is met.  So such comments may be taken out of a text, or filled with other lines,
without a change to what a scan finds (`scan_eq_of_differsInComments`).

Two runs are compared here, one over all lines and one over the lines that are left.
They agree before every line that is not inside of a comment taken out; inside of one,
the run over all lines is in the comment and the other run is still in code
(`Shadows`).  Nothing else differs, because a waiting block outlives both.
-/

namespace DocPress.Javadoc

open Text

/-! ### Comments as they are consumed -/

/-- A line met in code that is a comment to its end. -/
def LineCommentAt (ls : List Text) (n : Nat) : Prop :=
  MetInCode ls n ∧ ['/', '/'] <+: lineAt ls n

/-- The lines from `o` up to but without `e` are one comment without documentation: it
is opened on line `o`, and it is closed on the last of the lines or, where these are
the last of the text, perhaps never. -/
structure WholeComment (ls : List Text) (o e : Nat) : Prop where
  lt : o < e
  le : e ≤ ls.length
  met : MetInCode ls o
  opens : ['/', '*'] <+: lineAt ls o ∧ ¬ OpensBlock (lineAt ls o)
  inside : ∀ k, o < k → k < e → (progressAt ls k).place = .plainComment
  ends : (progressAt ls e).place = .code ∨ e = ls.length

/-- Lines that may be taken out: line comments, and whole comments from their first to
their last line. -/
def Hideable (ls : List Text) (hidden : Finset Nat) : Prop :=
  ∀ n ∈ hidden, LineCommentAt ls n ∨
    ∃ o e, WholeComment ls o e ∧ o ≤ n ∧ n < e ∧ ∀ k, o ≤ k → k < e → k ∈ hidden

/-- The first `n` lines without the hidden ones. -/
def keptLines (ls : List Text) (hidden : Finset Nat) (n : Nat) : List Text :=
  (linesBefore (· ∉ hidden) n).map (lineAt ls)

/-- The lines of two texts differ in comments without documentation only: some of them
are taken out, or the lines between the first and the last line of one are replaced by
lines that do not close it. -/
inductive DiffersInComments (ls : List Text) : List Text → Prop where
  | hide {hidden : Finset Nat} (h : Hideable ls hidden) :
      DiffersInComments ls (keptLines ls hidden ls.length)
  | rephrase {before inner inner' after : List Text} {first last : Text}
      (hls : ls = before ++ first :: (inner ++ last :: after))
      (hcomment : WholeComment ls before.length (before.length + (inner.length + 2)))
      (hinner : ∀ line ∈ inner', ¬ Closes line) :
      DiffersInComments ls (before ++ first :: (inner' ++ last :: after))

/-! ### What a comment leaves alone -/

/-- A scan that has found the same and is at another place. -/
def Progress.movedTo (p : Progress) (place : Place) : Progress := { p with place := place }

@[simp] theorem Progress.classes_movedTo (p : Progress) (place : Place) :
    (p.movedTo place).classes = p.classes := rfl

@[simp] theorem Progress.movedTo_movedTo (p : Progress) (place place' : Place) :
    (p.movedTo place).movedTo place' = p.movedTo place' := rfl

theorem Progress.movedTo_of_eq {p : Progress} {place : Place} (h : p.place = place) :
    p.movedTo place = p := h ▸ rfl

/-- A scan in a comment stays as it is on lines that do not close it. -/
theorem foldl_step_inside {p : Progress} {lines : List Text} (hplace : p.place = .plainComment)
    (hlines : ∀ line ∈ lines, ¬ Closes line) : lines.foldl step p = p := by
  induction lines with
  | nil => rfl
  | cons line more ih =>
      rw [List.foldl_cons, step_plainLine hplace (hlines line List.mem_cons_self)]
      exact ih fun l hl => hlines l (List.mem_cons_of_mem _ hl)

section whole

variable {ls : List Text} {o e n : Nat}

theorem WholeComment.plainCommentAt (h : WholeComment ls o e) (ho : o ≤ n) (hn : n < e) :
    PlainCommentAt ls n := by
  rcases Nat.lt_or_eq_of_le ho with hlt | rfl
  · exact .inr (h.inside n hlt hn)
  · exact .inl ⟨h.met, .inr h.opens⟩

/-- From its first line to the end, a comment changes nothing but the place. -/
theorem WholeComment.progressAt_eq (h : WholeComment ls o e) (ho : o ≤ n) (hn : n ≤ e) :
    progressAt ls n = (progressAt ls o).movedTo (progressAt ls n).place := by
  induction n with
  | zero =>
      obtain rfl : o = 0 := by omega
      rfl
  | succ n ih =>
      rcases Nat.lt_or_eq_of_le ho with hlt | heq
      · have hle : o ≤ n := by omega
        have hlength : n < ls.length := Nat.lt_of_lt_of_le (by omega) h.le
        obtain ⟨next, -, hstep⟩ := step_comment (h.plainCommentAt hle (by omega))
        rw [progressAt_succ hlength, hstep, ih hle (by omega)]
        rfl
      · rw [← heq]
        rfl

end whole

/-! ### Lines taken out -/

/-- The line before is hidden and the comment that it belongs to is not closed yet. -/
def InHidden (ls : List Text) (hidden : Finset Nat) (n : Nat) : Prop :=
  (progressAt ls n).place = .plainComment ∧ ∃ m ∈ hidden, m + 1 = n

/-- How a run without the hidden lines is tied to the run over all lines. -/
structure Shadows (ls : List Text) (hidden : Finset Nat) (n : Nat) (q : Progress) : Prop where
  inside : InHidden ls hidden n → q = (progressAt ls n).movedTo .code
  outside : ¬ InHidden ls hidden n → q = progressAt ls n

section hidden

variable {ls : List Text} {hidden : Finset Nat} {n : Nat} {q : Progress}

/-- A comment is hidden to its end, so a line that is kept is not inside of it. -/
theorem Hideable.not_inHidden (h : Hideable ls hidden) (hn : n < ls.length) (hkept : n ∉ hidden) :
    ¬ InHidden ls hidden n := by
  rintro ⟨hplace, m, hm, rfl⟩
  rcases h m hm with hline | ⟨o, e, hcomment, ho, he, hall⟩
  · rw [progressAt_succ (by omega), step_lineComment hline.1 hline.2, hline.1] at hplace
    cases hplace
  · have hend : m + 1 = e := by
      refine Decidable.byContradiction fun hne => hkept (hall (m + 1) (by omega) (by omega))
    rcases hcomment.ends with hcode | hlength
    · rw [hend, hcode] at hplace
      cases hplace
    · omega

theorem Shadows.keep (h : Shadows ls hidden n q) (hhide : Hideable ls hidden)
    (hn : n < ls.length) (hkept : n ∉ hidden) :
    Shadows ls hidden (n + 1) (step q (lineAt ls n)) := by
  have hnot : ¬ InHidden ls hidden (n + 1) := by
    rintro ⟨-, m, hm, hmn⟩
    obtain rfl : m = n := by omega
    exact hkept hm
  refine ⟨fun hin => absurd hin hnot, fun _ => ?_⟩
  rw [h.outside (hhide.not_inHidden hn hkept), progressAt_succ hn]

theorem Shadows.skip (h : Shadows ls hidden n q) (hhide : Hideable ls hidden)
    (hn : n < ls.length) (hmem : n ∈ hidden) : Shadows ls hidden (n + 1) q := by
  have hin : InHidden ls hidden (n + 1) ↔ (progressAt ls (n + 1)).place = .plainComment :=
    ⟨fun hin => hin.1, fun hplace => ⟨hplace, n, hmem, rfl⟩⟩
  have hout : (progressAt ls n).place = .code → ¬ InHidden ls hidden n := by
    rintro hcode ⟨hplace, -⟩
    rw [hcode] at hplace
    cases hplace
  rcases hhide n hmem with hline | ⟨o, e, hcomment, ho, he, hall⟩
  · have hsame : progressAt ls (n + 1) = progressAt ls n := by
      rw [progressAt_succ hn, step_lineComment hline.1 hline.2]
    have hq := h.outside (hout hline.1)
    refine ⟨fun hinside => ?_, fun _ => hq.trans hsame.symm⟩
    rw [hin, hsame, hline.1] at hinside
    cases hinside
  · -- the run over the kept lines stands where the comment was opened
    have hq : q = progressAt ls o := by
      rcases Nat.lt_or_eq_of_le ho with hlt | rfl
      · have hinside : InHidden ls hidden n :=
          ⟨hcomment.inside n hlt he, n - 1, hall (n - 1) (by omega) (by omega), by omega⟩
        rw [h.inside hinside, hcomment.progressAt_eq ho (by omega), Progress.movedTo_movedTo,
          Progress.movedTo_of_eq hcomment.met]
      · exact h.outside (hout hcomment.met)
    have hnext := hcomment.progressAt_eq (n := n + 1) (by omega) (by omega)
    refine ⟨fun _ => ?_, fun hnot => ?_⟩
    · rw [hq, hnext, Progress.movedTo_movedTo, Progress.movedTo_of_eq hcomment.met]
    · -- a comment leaves a scan in code or inside of it
      have hplace : (progressAt ls (n + 1)).place = .code := by
        obtain ⟨next, hcode | hplain, hstep⟩ := step_comment (hcomment.plainCommentAt ho he)
        · rw [progressAt_succ hn, hstep, hcode]
        · refine absurd (hin.2 ?_) hnot
          rw [progressAt_succ hn, hstep, hplain]
      rw [hq, hnext, hplace, Progress.movedTo_of_eq hcomment.met]

theorem shadows_keptLines (hhide : Hideable ls hidden) (hn : n ≤ ls.length) :
    Shadows ls hidden n ((keptLines ls hidden n).foldl step Progress.start) := by
  induction n with
  | zero =>
      refine ⟨?_, fun _ => rfl⟩
      rintro ⟨hplace, -⟩
      cases hplace
  | succ n ih =>
      have hshadows := ih (Nat.le_of_succ_le hn)
      by_cases hmem : n ∈ hidden
      · rw [keptLines, linesBefore_succ_neg (not_not.2 hmem), ← keptLines]
        exact hshadows.skip hhide hn hmem
      · rw [keptLines, linesBefore_succ_pos hmem, List.map_append, List.foldl_append, ← keptLines]
        exact hshadows.keep hhide hn hmem

/-- Without hidden lines a scan ends with the same types. -/
theorem Hideable.classes_eq (hhide : Hideable ls hidden) :
    ((keptLines ls hidden ls.length).foldl step Progress.start).classes =
      (progressAt ls ls.length).classes := by
  have hshadows := shadows_keptLines hhide (Nat.le_refl ls.length)
  by_cases hin : InHidden ls hidden ls.length
  · rw [hshadows.inside hin, Progress.classes_movedTo]
  · rw [hshadows.outside hin]

end hidden

/-! ### Lines replaced -/

section rephrase

variable {ls before inner inner' after : List Text} {first last : Text}

/-- Before the last line of a comment a scan is in the comment, whatever stands between
its first and its last line. -/
theorem foldl_rephrased (hls : ls = before ++ first :: (inner ++ last :: after))
    (hcomment : WholeComment ls before.length (before.length + (inner.length + 2)))
    (hinner : ∀ line ∈ inner', ¬ Closes line) :
    (before ++ first :: inner').foldl step Progress.start =
      (before ++ first :: inner).foldl step Progress.start := by
  have hfirst : lineAt ls before.length = first := by
    rw [lineAt, hls, List.getElem?_append_right (Nat.le_refl _), Nat.sub_self]
    rfl
  have htake : progressAt ls before.length = before.foldl step Progress.start := by
    rw [progressAt, hls, List.take_left]
  have hinside : ∀ n, before.length < n → n < before.length + (inner.length + 2) →
      progressAt ls n = (before.foldl step Progress.start).movedTo .plainComment := by
    intro n ho he
    rw [hcomment.progressAt_eq (Nat.le_of_lt ho) (Nat.le_of_lt he), hcomment.inside n ho he, htake]
  have hopened : step (before.foldl step Progress.start) first =
      (before.foldl step Progress.start).movedTo .plainComment := by
    have hlt : before.length < ls.length := Nat.lt_of_lt_of_le hcomment.lt hcomment.le
    rw [← hinside (before.length + 1) (by omega) (by omega), progressAt_succ hlt, hfirst, htake]
  have hall : (before ++ first :: inner).foldl step Progress.start =
      (before.foldl step Progress.start).movedTo .plainComment := by
    rw [← hinside (before.length + (inner.length + 1)) (by omega) (by omega), progressAt]
    congr 1
    have hsplit : ls = (before ++ first :: inner) ++ last :: after := by
      rw [hls, List.append_assoc, List.cons_append]
    rw [hsplit, List.take_left' (by simp)]
  rw [hall, List.foldl_append, List.foldl_cons, hopened]
  exact foldl_step_inside rfl hinner

end rephrase

/-! ### Texts that differ in comments -/

theorem DiffersInComments.classes_eq {ls ls' : List Text} (h : DiffersInComments ls ls') :
    (ls'.foldl step Progress.start).classes = (ls.foldl step Progress.start).classes := by
  cases h with
  | hide h => rw [h.classes_eq, progressAt, List.take_length]
  | @rephrase before inner inner' after first last hls hcomment hinner =>
      have hfold : ∀ between, (before ++ first :: (between ++ last :: after)).foldl step
          Progress.start = (last :: after).foldl step
            ((before ++ first :: between).foldl step Progress.start) := by
        intro between
        rw [← List.foldl_append, List.append_assoc, List.cons_append]
      rw [hls, hfold inner', foldl_rephrased hls hcomment hinner, ← hfold inner]

/-- Two texts that differ in comments without documentation only have the same types,
members, signatures and documentation. -/
theorem scan_eq_of_differsInComments {u : SourceUnit} {content : Text}
    (h : DiffersInComments (trimmedLines u.content) (trimmedLines content)) :
    scan { u with content := content } = scan u := by
  have hclasses : classesOf content = classesOf u.content := by
    rw [classesOf_eq, classesOf_eq, progressAt, progressAt, List.take_length, List.take_length]
    exact h.classes_eq
  rw [scan, scan, hclasses]

/-- A line comment and a comment that hides a type stand between a block and its type.
Both may go, and the hidden type may become something else. -/
theorem scan_eq_of_differsInComments_between :
    let u : SourceUnit := SourceUnit.make "A.java".toList "A.java".toList
      "/** Kept. */\n// note\n/*/ old\n  class Hidden\n */\nclass A".toList none
    let bare : Text := "/** Kept. */\nclass A".toList
    let other : Text := "/** Kept. */\n// note\n/*/ old\n*/ x\n/** y\n */\nclass A".toList
    (DiffersInComments (trimmedLines u.content) (trimmedLines bare) ∧
        scan { u with content := bare } = scan u) ∧
      (DiffersInComments (trimmedLines u.content) (trimmedLines other) ∧
        scan { u with content := other } = scan u) ∧
      ∃ b, (scan u).classes = [⟨"A".toList, "class".toList, some b, [], []⟩] := by
  intro u bare other
  have hcomment : WholeComment (trimmedLines u.content) 2 5 := by
    refine ⟨by decide, by decide, by decide, by decide, ?_, .inl (by decide)⟩
    intro k hk hk'
    obtain rfl | rfl : k = 3 ∨ k = 4 := by omega
    · decide
    · decide
  have hhide : Hideable (trimmedLines u.content) {1, 2, 3, 4} := by
    intro n hn
    obtain rfl | hin : n = 1 ∨ 2 ≤ n ∧ n < 5 := by
      simp only [Finset.mem_insert, Finset.mem_singleton] at hn
      omega
    · exact .inl ⟨by decide, by decide⟩
    · refine .inr ⟨2, 5, hcomment, hin.1, hin.2, fun k hk hk' => ?_⟩
      simp only [Finset.mem_insert, Finset.mem_singleton]
      omega
  have hbare : DiffersInComments (trimmedLines u.content) (trimmedLines bare) := by
    have hlines : trimmedLines bare = keptLines (trimmedLines u.content) {1, 2, 3, 4}
        (trimmedLines u.content).length := by decide
    exact hlines ▸ .hide hhide
  have hother : DiffersInComments (trimmedLines u.content) (trimmedLines other) :=
    @DiffersInComments.rephrase _ ["/** Kept. */".toList, "// note".toList]
      ["class Hidden".toList] ["*/ x".toList, "/** y".toList] ["class A".toList]
      "/*/ old".toList "*/".toList (by decide) hcomment (by decide)
  exact ⟨⟨hbare, scan_eq_of_differsInComments hbare⟩,
    ⟨hother, scan_eq_of_differsInComments hother⟩, ⟨"Kept.".toList⟩, by decide⟩

end DocPress.Javadoc
