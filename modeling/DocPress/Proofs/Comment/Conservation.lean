import DocPress.Proofs.Comment.Normal

/-!
# What normalizing keeps

A normal form is trimmed, has line feeds for its only line ends, and each of its lines is
trimmed (`isNormal_normalize`).  All that is visible in a comment stays in it, in order, but for
the delimiters at its ends and one star at the beginning of each line after the first
(`visible_normalize`).  The line ends of a comment leave no trace, nor do the blanks around it:
with other line ends in place of its line feeds it is the same text once they are unified
(`unifyLineEnds_replaceChar`), and unifying them changes nothing that a comment says.
-/

namespace DocPress.Comment

open Text

/-- A text as normalizing leaves it: trimmed, with line feeds for its only line ends, and with
trimmed lines. -/
structure IsNormal (t : Text) : Prop where
  trimmed : IsTrimmed t
  feed : ∀ c ∈ t, isBreak c = true → c = '\n'
  lines : ∀ line ∈ splitAt '\n' t, IsTrimmed line

/-- A text cut into the delimiters of a comment, either of which may be missing, and the middle
between them.  The opening delimiter is cut off first, so no star belongs to both. -/
structure IsDelimited (t opening middle closing : Text) : Prop where
  eq_append : t = opening ++ (middle ++ closing)
  opening : opening = ['/', '*', '*'] ∨ opening = [] ∧ ¬ ['/', '*', '*'] <+: t
  closing : closing = ['*', '/'] ∨ closing = [] ∧ ¬ ['*', '/'] <:+ middle

/-- A text without the star that it begins with, if it begins with one. -/
def dropStar (t : Text) : Text := (after? ['*'] t).getD t

/-- What is visible in lines, in order, less one star at the beginning of each line after the
first. -/
def unstarred : List Text → Text
  | [] => []
  | first :: others => visible first ++ others.flatMap fun line => dropStar (visible line)

/-! ### The normal form -/

theorem isNormal_normalize (raw : Text) : IsNormal (normalize raw) := by
  obtain ⟨ls, hjoin, -, hls⟩ := exists_normalize_eq_join raw
  have hfeed : ∀ line ∈ ls, '\n' ∉ line := fun line hline hmem =>
    absurd ((hls line hline).2 _ hmem) (by decide)
  refine ⟨trim_normalize raw ▸ isTrimmed_trim _, fun c hc hbreak => ?_, ?_⟩
  · rw [hjoin] at hc
    rcases mem_of_mem_join hc with hc | ⟨line, hline, hc⟩
    · exact List.mem_singleton.1 hc
    · rw [(hls line hline).2 c hc] at hbreak
      cases hbreak
  · rw [hjoin]
    by_cases hne : ls = []
    · subst hne
      exact List.forall_mem_singleton.2 (isTrimmed_trim [])
    · rw [splitAt_join_of_notMem hne hfeed]
      exact fun line hline => (hls line hline).1

/-! ### What is visible -/

theorem head?_visible_of_isTrimmed {t : Text} (h : IsTrimmed t) : (visible t).head? = t.head? := by
  cases t with
  | nil => rfl
  | cons c t => simp [visible, h.head c rfl]

/-- The star of a line is the first that is visible in it. -/
theorem isStarred_eq (line : Text) : isStarred line = ((visible line).head? == some '*') := by
  rw [isStarred, ← head?_visible_of_isTrimmed (isTrimmed_trim line), visible_trim]

theorem visible_stripStar (line : Text) : visible (stripStar line) = dropStar (visible line) := by
  cases h : isStarred line with
  | true =>
      have hafter := after?_append ['*'] (visible (stripStar line))
      rw [List.singleton_append, ← visible_of_isStarred h] at hafter
      rw [dropStar, hafter, Option.getD_some]
  | false =>
      have hnot : ¬ ['*'] <+: visible line := by
        rintro ⟨rest, hrest⟩
        rw [isStarred_eq, ← hrest] at h
        cases h
      rw [visible_stripStar_of_not_isStarred h, dropStar, after?_eq_none hnot, Option.getD_none]

/-- A normal form holds what is visible between the delimiters, less the stars that begin its
lines after the first. -/
theorem visible_normalize (raw : Text) :
    visible (normalize raw) = unstarred (lines (body raw)) := by
  rw [normalize_eq_trim_join, visible_trim, visible_join]
  cases lines (body raw) with
  | nil => rfl
  | cons first others =>
      rw [cleaned, List.flatMap_cons, visible_trim, List.flatMap_map, unstarred]
      simp only [visible_stripStar]

theorem exists_closing (t : Text) :
    ∃ closing, t = (before? ['*', '/'] t).getD t ++ closing ∧
      (closing = ['*', '/'] ∨ closing = [] ∧ ¬ ['*', '/'] <:+ (before? ['*', '/'] t).getD t) := by
  by_cases hclosed : ['*', '/'] <:+ t
  · obtain ⟨middle, rfl⟩ := hclosed
    rw [before?_append, Option.getD_some]
    exact ⟨['*', '/'], rfl, .inl rfl⟩
  · rw [before?_eq_none hclosed, Option.getD_none]
    exact ⟨[], (List.append_nil t).symm, .inr ⟨rfl, hclosed⟩⟩

/-- The body of a comment is what stands between its delimiters. -/
theorem exists_isDelimited (raw : Text) :
    ∃ opening closing, IsDelimited (trim raw) opening (body raw) closing := by
  by_cases hopened : ['/', '*', '*'] <+: trim raw
  · obtain ⟨rest, hrest⟩ := hopened
    have hbody : body raw = (before? ['*', '/'] rest).getD rest := by
      rw [body, ← hrest, after?_append, Option.getD_some]
    obtain ⟨closing, heq, hcut⟩ := exists_closing rest
    rw [← hbody] at heq hcut
    exact ⟨['/', '*', '*'], closing, by rw [← hrest, ← heq], .inl rfl, hcut⟩
  · have hbody : body raw = (before? ['*', '/'] (trim raw)).getD (trim raw) := by
      rw [body, after?_eq_none hopened, Option.getD_none]
    obtain ⟨closing, heq, hcut⟩ := exists_closing (trim raw)
    rw [← hbody] at heq hcut
    exact ⟨[], closing, heq, .inr ⟨rfl, hopened⟩, hcut⟩

theorem IsDelimited.visible_eq {raw opening middle closing : Text}
    (h : IsDelimited (trim raw) opening middle closing) :
    visible raw = opening ++ ((lines middle).flatMap visible ++ closing) := by
  have hopening : visible opening = opening := by
    rcases h.opening with rfl | ⟨rfl, -⟩ <;> decide
  have hclosing : visible closing = closing := by
    rcases h.closing with rfl | ⟨rfl, -⟩ <;> decide
  rw [← visible_trim raw, h.eq_append, visible_append, visible_append, hopening, hclosing,
    visible_lines]

/-! ### Line ends and blanks that leave no trace -/

theorem normalize_replaceChar {feed : Text} (hfeed : feed ∈ feeds) {t : Text}
    (ht : '\r' ∉ t) : normalize (replaceChar '\n' feed t) = normalize t := by
  rw [← normalize_unifyLineEnds, unifyLineEnds_replaceChar hfeed ht]

theorem normalize_append_blanks {l r : Text} (hl : AreBlanks l) (hr : AreBlanks r) (t : Text) :
    normalize (l ++ (t ++ r)) = normalize t := by
  rw [← normalize_trim, trim_append_blanks hl hr, normalize_trim]

/-- Whatever a comment holds, or if it is missing, its normal form is trimmed line by line and
keeps all that is visible in it, in order, but for the delimiters at its ends and one star at
the beginning of each line after the first.  Other line ends in place of line feeds and blanks
around the comment make no difference. -/
theorem normalize_keeps_visible (raw : Option Text) :
    let t := raw.getD []
    IsNormal (normalize t) ∧
      (∃ opening middle closing, IsDelimited (trim t) opening middle closing ∧
        visible t = opening ++ ((lines middle).flatMap visible ++ closing) ∧
        visible (normalize t) = unstarred (lines middle)) ∧
      ('\r' ∉ t → ∀ feed ∈ feeds,
        normalize (replaceChar '\n' feed t) = normalize t) ∧
      ∀ l r, AreBlanks l → AreBlanks r → normalize (l ++ (t ++ r)) = normalize t := by
  intro t
  obtain ⟨opening, closing, hcut⟩ := exists_isDelimited t
  exact ⟨isNormal_normalize t,
    ⟨opening, body t, closing, hcut, hcut.visible_eq, visible_normalize t⟩,
    fun hreturn feed hfeed => normalize_replaceChar hfeed hreturn,
    fun l r hl hr => normalize_append_blanks hl hr t⟩

/-- Three stars at either end leave one, and of the two stars behind a vertical tab the first
goes.  Carriage returns for line feeds and blanks around the comment make no difference. -/
theorem normalize_keeps_visible_stars :
    let t : Text := "/*** *a*\x0b\t* * b\n***/".toList
    let l : Text := "\u2028 ".toList
    let r : Text := "\r\n".toList
    ('\r' ∉ t ∧ ['\r'] ∈ feeds ∧ AreBlanks l ∧ AreBlanks r) ∧
      normalize t = "* *a*\n* b\n*".toList ∧ IsNormal (normalize t) ∧
      normalize (replaceChar '\n' ['\r'] t) = normalize t ∧
      normalize (l ++ (t ++ r)) = normalize t := by
  intro t l r
  have hreturn : '\r' ∉ t := by decide
  have hfeed : ['\r'] ∈ feeds := by decide
  have hl : AreBlanks l := by decide
  have hr : AreBlanks r := by decide
  obtain ⟨hnormal, -, hreplaced, hpadded⟩ := normalize_keeps_visible (some t)
  exact ⟨⟨hreturn, hfeed, hl, hr⟩, by decide, hnormal, hreplaced hreturn _ hfeed,
    hpadded l r hl hr⟩

end DocPress.Comment
