import DocPress.Proofs.Javadoc.Attachment
import DocPress.Proofs.Text.LineEnds
import DocPress.Source.Scanner

/-!
# Layout does not matter

A scan reads trimmed lines, so it does not see which line ends a text has, nor the blanks
around its lines (`scan_eq_of_relaid`).  Two points need care.  A carriage return is a line end
of its own, but not before a line feed, so line feeds may be replaced in a text without
carriage returns only (`lines_replaceChar`).  And blanks behind the last line end make one more
line, which is empty when it is trimmed and adds nothing (`classes_step_nil`).
-/

namespace DocPress.Javadoc

open Text

/-- Two lines that differ in blanks at their ends only. -/
def SameButEnds (line line' : Text) : Prop :=
  (OneLine line ∧ OneLine line') ∧ ∃ core l r l' r', line = l ++ (core ++ r) ∧
    line' = l' ++ (core ++ r') ∧ (AreBlanks l ∧ AreBlanks r) ∧ AreBlanks l' ∧ AreBlanks r'

/-- Two texts with the same line ends whose lines differ in blanks at their ends only. -/
inductive Padded : Text → Text → Prop where
  | last {line line' : Text} (same : SameButEnds line line') : Padded line line'
  | line {line line' rest rest' : Text} {c : Char} (same : SameButEnds line line')
      (hbreak : isBreak c = true) (more : Padded rest rest') :
      Padded (line ++ c :: rest) (line' ++ c :: rest')

/-! ### Blanks around lines -/

/-- The same lines, perhaps with an empty one at the end. -/
def IsEnded (ls ms : List Text) : Prop := ms = ls ∨ ms = ls ++ [[]]

theorem SameButEnds.trim_eq {line line' : Text} (h : SameButEnds line line') :
    trim line = trim line' := by
  obtain ⟨-, core, l, r, l', r', rfl, rfl, ⟨hl, hr⟩, hl', hr'⟩ := h
  rw [trim_append_blanks hl hr, trim_append_blanks hl' hr']

theorem isEnded_of_oneLine {line : Text} (h : OneLine line) :
    IsEnded (if trim line = [] then [] else [trim line]) (trimmedLines line) := by
  by_cases hne : line = []
  · subst hne
    exact .inl rfl
  · rw [trimmedLines, lines_of_oneLine h hne]
    split
    · next hnil => exact .inr (by rw [List.map_singleton, hnil]; rfl)
    · exact .inl rfl

theorem trimmedLines_append {line rest : Text} {c : Char} (h : OneLine line)
    (hbreak : isBreak c = true) (hc : c ≠ '\r') :
    trimmedLines (line ++ c :: rest) = trim line :: trimmedLines rest := by
  have hfirst : lines (c :: rest) = [] :: lines rest :=
    lines_break hbreak fun heq => absurd heq hc
  rw [trimmedLines, lines_append_left h hfirst, List.append_nil, List.map_cons, trimmedLines]

/-- Blanks around its lines do not change the trimmed lines of a text, apart from an empty one
at the end. -/
theorem Padded.isEnded {t t' : Text} (h : Padded t t') (ht : '\r' ∉ t) :
    ∃ ls, IsEnded ls (trimmedLines t) ∧ IsEnded ls (trimmedLines t') := by
  induction h with
  | @last line line' same =>
      refine ⟨_, isEnded_of_oneLine same.1.1, ?_⟩
      rw [same.trim_eq]
      exact isEnded_of_oneLine same.1.2
  | @line line line' rest rest' c same hbreak more ih =>
      have hc : c ≠ '\r' := fun heq => ht (by simp [heq])
      obtain ⟨ls, hls, hls'⟩ := ih fun hmem => ht (by simp [hmem])
      refine ⟨trim line :: ls, ?_, ?_⟩
      · rw [trimmedLines_append same.1.1 hbreak hc]
        exact hls.imp (fun h => by rw [h]) fun h => by rw [h]; rfl
      · rw [trimmedLines_append same.1.2 hbreak hc, same.trim_eq]
        exact hls'.imp (fun h => by rw [h]) fun h => by rw [h]; rfl

theorem Padded.return_notMem {t t' : Text} (h : Padded t t') (ht : '\r' ∉ t) : '\r' ∉ t' := by
  have hline : ∀ {line : Text}, OneLine line → '\r' ∉ line := fun h hmem =>
    absurd (h _ hmem) (by decide)
  induction h with
  | last same => exact hline same.1.2
  | line same hbreak more ih =>
      simp only [List.mem_append, List.mem_cons, not_or] at ht ⊢
      exact ⟨hline same.1.2, ht.2.1, ih ht.2.2⟩

theorem SameButEnds.isAllBlank_eq {line line' : Text} (h : SameButEnds line line') :
    isAllBlank line = isAllBlank line' := by
  have hblanks : ∀ t : Text, isAllBlank t = true ↔ trim t = [] := fun t => by
    rw [trim_eq_nil_iff, isAllBlank, List.all_eq_true]
    rfl
  rw [Bool.eq_iff_iff, hblanks, hblanks, h.trim_eq]

theorem Padded.isAllBlank_eq {t t' : Text} (h : Padded t t') : isAllBlank t = isAllBlank t' := by
  induction h with
  | last same => exact same.isAllBlank_eq
  | line same hbreak more ih =>
      have hends := same.isAllBlank_eq
      rw [isAllBlank, isAllBlank] at hends ih
      rw [isAllBlank, isAllBlank, List.all_append, List.all_append, List.all_cons, List.all_cons,
        hends, ih]

/-! ### The scan -/

/-- An empty line adds nothing to what was found. -/
theorem classes_step_nil (p : Progress) : (step p []).classes = p.classes := by
  have hnone : found? p [] = none := if_neg fun h => nomatch h.2
  rw [(step_consumed p []).classes_eq, hnone]
  rfl

theorem classes_foldl_of_isEnded {ls ms : List Text} (h : IsEnded ls ms) :
    (ms.foldl step Progress.start).classes = (ls.foldl step Progress.start).classes := by
  rcases h with rfl | rfl
  · rfl
  · rw [List.foldl_append]
    exact classes_step_nil _

theorem Padded.classesOf_eq {t t' : Text} (h : Padded t t') (ht : '\r' ∉ t) :
    classesOf t' = classesOf t := by
  obtain ⟨ls, hls, hls'⟩ := h.isEnded ht
  have hfold : ∀ content, classesOf content =
      ((trimmedLines content).foldl step Progress.start).classes := fun content => by
    rw [classesOf, trimmedLines, List.foldl_map]
  rw [hfold, hfold, classes_foldl_of_isEnded hls, classes_foldl_of_isEnded hls']

theorem classesOf_replaceChar {feed : Text} (hfeed : feed ∈ feeds) {t : Text} (ht : '\r' ∉ t) :
    classesOf (replaceChar '\n' feed t) = classesOf t := by
  rw [classesOf, classesOf, lines_replaceChar hfeed ht]

/-- Other line ends in place of line feeds, and blanks at the ends of lines that come or go,
do not change what a unit gives. -/
theorem scan_eq_of_relaid (u : SourceUnit) {feed t : Text} (hreturn : '\r' ∉ u.content)
    (hfeed : feed ∈ feeds) (hpadded : Padded u.content t) :
    Scanner.java.scan { u with content := replaceChar '\n' feed t } = Scanner.java.scan u := by
  have hclasses : classesOf (replaceChar '\n' feed t) = classesOf u.content := by
    rw [classesOf_replaceChar hfeed (hpadded.return_notMem hreturn), hpadded.classesOf_eq hreturn]
  have hscan : scan { u with content := replaceChar '\n' feed t } = scan u := by
    rw [scan, scan, hclasses]
  have hblank : isAllBlank (replaceChar '\n' feed t) = isAllBlank u.content := by
    rw [isAllBlank_replaceChar hfeed, hpadded.isAllBlank_eq]
  have hrun : Scanner.java.run { u with content := replaceChar '\n' feed t } =
      Scanner.java.run u := congrArg Except.ok hscan
  rw [Scanner.scan, Scanner.scan, SourceUnit.isBlank, SourceUnit.isBlank, hrun, hblank]
  rfl

/-- A block and its type keep each other with carriage returns in place of line feeds, another
indentation and blanks behind the last line end. -/
theorem scan_eq_of_relaid_returns :
    let u : SourceUnit := SourceUnit.make "A.java".toList "A.java".toList
      "/** A. */\n  class A\n".toList none
    let t : Text := " /** A. */\x1f\nclass A\t\n\t ".toList
    ('\r' ∉ u.content ∧ ['\r'] ∈ feeds ∧ Padded u.content t) ∧
      replaceChar '\n' ['\r'] t = " /** A. */\x1f\rclass A\t\r\t ".toList ∧
      Scanner.java.scan { u with content := replaceChar '\n' ['\r'] t } = Scanner.java.scan u ∧
      (scan u).classes = [⟨"A".toList, "class".toList, some ⟨"A.".toList⟩, [], []⟩] := by
  intro u t
  have hreturn : '\r' ∉ u.content := by decide
  have hfeed : ['\r'] ∈ feeds := by decide
  have hpadded : Padded u.content t := by
    refine @Padded.line "/** A. */".toList " /** A. */\x1f".toList _ _ '\n'
      ⟨by decide, "/** A. */".toList, [], [], [' '], ['\x1f'], by decide⟩ (by decide) ?_
    refine @Padded.line "  class A".toList "class A\t".toList _ _ '\n'
      ⟨by decide, "class A".toList, "  ".toList, [], [], ['\t'], by decide⟩ (by decide) ?_
    exact .last ⟨by decide, [], [], [], "\t ".toList, [], by decide⟩
  exact ⟨⟨hreturn, hfeed, hpadded⟩, by decide, scan_eq_of_relaid u hreturn hfeed hpadded,
    by decide⟩

end DocPress.Javadoc
