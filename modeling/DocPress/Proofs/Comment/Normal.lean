import DocPress.Comment.Basic
import DocPress.Proofs.Text.LineEnds

/-!
# Normal forms of comments

A normal form is made of trimmed lines (`exists_normalize_eq_join`), and of what is
visible in a comment it lacks the delimiters and one star for each starred line
after the first (`length_visible_normalize`).  Normalizing a normal form again
changes nothing exactly when it is bare, that is when no delimiter and no leading
star is left in it (`normalize_eq_self`, `isBare_of_length_visible`).  It does not
depend on the line ends of the comment (`normalize_unifyLineEnds`).
-/

namespace DocPress.Comment

open Text

/-- A line that begins with a star. -/
def isStarred (line : Text) : Bool := (trim line).head? == some '*'

/-- The lines of a comment as its normal form holds them. -/
def cleaned : List Text → List Text
  | [] => []
  | first :: others => trim first :: others.map stripStar

/-- A text that normalizing leaves alone: no delimiter, and no star before a line
other than the first. -/
structure IsBare (t : Text) : Prop where
  unopened : ¬ ['/', '*', '*'] <+: t
  unclosed : ¬ ['*', '/'] <:+ t
  unstarred : ∀ line ∈ (lines t).tail, isStarred line = false

/-! ### Lines without their star -/

theorem stripStar_of_isStarred {line : Text} (h : isStarred line = true) :
    ∃ rest, trim line = '*' :: rest ∧ stripStar line = trim rest := by
  obtain ⟨rest, hrest⟩ := List.head?_eq_some_iff.1 (beq_iff_eq.1 h)
  refine ⟨rest, hrest, ?_⟩
  rw [stripStar, hrest]
  rfl

theorem stripStar_of_not_isStarred {line : Text} (h : isStarred line = false) :
    stripStar line = trim line := by
  rw [stripStar.eq_def]
  split
  · next rest heq =>
      rw [isStarred, heq] at h
      cases h
  · rfl

/-- Only the trimmed line matters. -/
theorem stripStar_congr {a b : Text} (h : trim a = trim b) : stripStar a = stripStar b := by
  rw [stripStar, stripStar, h]

theorem isTrimmed_stripStar (line : Text) : IsTrimmed (stripStar line) := by
  cases h : isStarred line with
  | true =>
      obtain ⟨rest, -, heq⟩ := stripStar_of_isStarred h
      exact heq ▸ isTrimmed_trim rest
  | false => exact stripStar_of_not_isStarred h ▸ isTrimmed_trim line

theorem oneLine_stripStar {line : Text} (hone : OneLine line) : OneLine (stripStar line) := by
  cases h : isStarred line with
  | true =>
      obtain ⟨rest, htrim, heq⟩ := stripStar_of_isStarred h
      have hcut : OneLine ('*' :: rest) := htrim ▸ hone.trim
      exact heq ▸ ((oneLine_append (a := ['*'])).1 hcut).2.trim
  | false => exact stripStar_of_not_isStarred h ▸ hone.trim

/-- What is visible in a starred line is its star and what stays of the line. -/
theorem visible_of_isStarred {line : Text} (h : isStarred line = true) :
    visible line = '*' :: visible (stripStar line) := by
  obtain ⟨rest, htrim, heq⟩ := stripStar_of_isStarred h
  rw [heq, visible_trim, ← visible_trim line, htrim]
  rfl

theorem visible_stripStar_of_not_isStarred {line : Text} (h : isStarred line = false) :
    visible (stripStar line) = visible line := by
  rw [stripStar_of_not_isStarred h, visible_trim]

theorem length_visible_stripStar (line : Text) :
    (visible (stripStar line)).length + (if isStarred line then 1 else 0) =
      (visible line).length := by
  cases h : isStarred line with
  | true => rw [visible_of_isStarred h, List.length_cons, if_pos rfl]
  | false => rw [visible_stripStar_of_not_isStarred h, if_neg Bool.false_ne_true, Nat.add_zero]

/-! ### Cleaned lines -/

theorem normalize_eq_trim_join (raw : Text) :
    normalize raw = trim (join ['\n'] (cleaned (lines (body raw)))) := by
  rw [normalize]
  cases lines (body raw) <;> rfl

theorem mem_cleaned {ls : List Text} {line : Text} (h : line ∈ cleaned ls) :
    ∃ l ∈ ls, line = trim l ∨ line = stripStar l := by
  cases ls with
  | nil => cases h
  | cons first others =>
      rcases List.mem_cons.1 h with rfl | h
      · exact ⟨first, List.mem_cons_self, .inl rfl⟩
      · obtain ⟨l, hl, rfl⟩ := List.mem_map.1 h
        exact ⟨l, List.mem_cons_of_mem _ hl, .inr rfl⟩

/-- A normal form is made of trimmed lines. -/
theorem exists_normalize_eq_join (raw : Text) :
    ∃ ls, normalize raw = join ['\n'] ls ∧ lines (normalize raw) = ls ∧
      ∀ line ∈ ls, IsTrimmed line ∧ OneLine line := by
  have hcleaned : ∀ line ∈ cleaned (lines (body raw)), IsTrimmed line ∧ OneLine line := by
    intro line hline
    obtain ⟨l, hl, rfl | rfl⟩ := mem_cleaned hline
    · exact ⟨isTrimmed_trim l, (oneLine_of_mem_lines l hl).trim⟩
    · exact ⟨isTrimmed_stripStar l, oneLine_stripStar (oneLine_of_mem_lines l hl)⟩
  obtain ⟨kept, hkept, hlast, heq⟩ := exists_trim_join fun line hline => (hcleaned line hline).1
  have hboth : ∀ line ∈ kept, IsTrimmed line ∧ OneLine line := fun line hline =>
    hcleaned line (hkept line hline)
  rw [normalize_eq_trim_join, heq]
  exact ⟨kept, rfl, lines_join (fun line hline => (hboth line hline).2) hlast, hboth⟩

theorem trim_normalize (raw : Text) : trim (normalize raw) = normalize raw := by
  rw [normalize_eq_trim_join, trim_trim]

/-! ### Comments with both delimiters -/

/-- A text between the delimiters of a comment. -/
def delimited (middle : Text) : Text := ['/', '*', '*'] ++ (middle ++ ['*', '/'])

theorem isTrimmed_opening : IsTrimmed ['/', '*', '*'] := by
  constructor <;> simp <;> decide

theorem isTrimmed_closing : IsTrimmed ['*', '/'] := by
  constructor <;> simp <;> decide

theorem body_delimited (middle : Text) : body (delimited middle) = middle := by
  have htrim : trim (delimited middle) = delimited middle := by
    rw [delimited, trim_trimmed_append isTrimmed_opening (by simp),
      trimRight_append_trimmed _ isTrimmed_closing (by simp)]
  rw [body, htrim, delimited, after?_append, Option.getD_some, before?_append, Option.getD_some]

/-- An empty last line makes no difference to a normal form. -/
theorem trim_join_cleaned_concat (ls : List Text) :
    trim (join ['\n'] (cleaned (ls ++ [[]]))) = trim (join ['\n'] (cleaned ls)) := by
  cases ls with
  | nil => rfl
  | cons first others =>
      have hcleaned : cleaned (first :: others ++ [[]]) = cleaned (first :: others) ++ [[]] := by
        simp only [List.cons_append, cleaned, List.map_append, List.map_cons, List.map_nil]
        rfl
      rw [hcleaned, join_concat (by simp [cleaned])]
      exact trim_append_right (by decide) _

theorem normalize_trim (raw : Text) : normalize (trim raw) = normalize raw := by
  rw [normalize, normalize, body, body, trim_trim]

/-! ### What normalizing takes away -/

theorem length_visible_cleaned (ls : List Text) :
    ((cleaned ls).flatMap visible).length + ls.tail.countP isStarred =
      (ls.flatMap visible).length := by
  cases ls with
  | nil => rfl
  | cons first others =>
      have hothers : ((others.map stripStar).flatMap visible).length + others.countP isStarred =
          (others.flatMap visible).length := by
        induction others with
        | nil => rfl
        | cons line more ih =>
            have hline := length_visible_stripStar line
            rw [List.countP_cons]
            simp only [List.map_cons, List.flatMap_cons, List.length_append]
            omega
      simp only [cleaned, List.flatMap_cons, List.length_append, visible_trim, List.tail_cons]
      omega

/-- A normal form holds what is visible between the delimiters, less one star for
every starred line after the first. -/
theorem length_visible_normalize (raw : Text) :
    (visible (normalize raw)).length + (lines (body raw)).tail.countP isStarred =
      (visible (body raw)).length := by
  rw [normalize_eq_trim_join, visible_trim, visible_join, length_visible_cleaned, visible_lines]

/-- Where normalizing takes away nothing visible, the text was bare. -/
theorem isBare_of_length_visible {t : Text} (htrim : trim t = t)
    (h : (visible (normalize t)).length = (visible t).length) : IsBare t := by
  -- whatever normalizing takes away is visible, so the count tells that it took nothing
  have hcount := length_visible_normalize t
  have hclose : ∀ u : Text, (visible ((before? ['*', '/'] u).getD u)).length ≤
      (visible u).length := by
    intro u
    by_cases hclosed : ['*', '/'] <:+ u
    · obtain ⟨v, rfl⟩ := hclosed
      rw [before?_append, Option.getD_some, visible_append, List.length_append]
      exact Nat.le_add_right _ _
    · rw [before?_eq_none hclosed, Option.getD_none]
  have hunopened : ¬ ['/', '*', '*'] <+: t := by
    rintro ⟨u, rfl⟩
    have hbody : body (['/', '*', '*'] ++ u) = (before? ['*', '/'] u).getD u := by
      rw [body, htrim, after?_append, Option.getD_some]
    have hle := hclose u
    have hmark : (visible (['/', '*', '*'] ++ u)).length = 3 + (visible u).length := by
      rw [visible_append, List.length_append]
      rfl
    rw [hbody] at hcount
    omega
  have hbody : body t = (before? ['*', '/'] t).getD t := by
    rw [body, htrim, after?_eq_none hunopened, Option.getD_none]
  have hunclosed : ¬ ['*', '/'] <:+ t := by
    rintro ⟨u, rfl⟩
    have hmark : (visible (u ++ ['*', '/'])).length = (visible u).length + 2 := by
      rw [visible_append, List.length_append]
      rfl
    rw [hbody, before?_append, Option.getD_some] at hcount
    omega
  rw [hbody, before?_eq_none hunclosed, Option.getD_none] at hcount
  have hnone : (lines t).tail.countP isStarred = 0 := by omega
  refine ⟨hunopened, hunclosed, fun line hline => ?_⟩
  simpa using List.countP_eq_zero.1 hnone line hline

/-- A bare normal form is its own normal form. -/
theorem normalize_eq_self {raw : Text} (h : IsBare (normalize raw)) :
    normalize (normalize raw) = normalize raw := by
  obtain ⟨ls, hjoin, hlines, hls⟩ := exists_normalize_eq_join raw
  -- no delimiter is there to be cut off, and no star before a line after the first
  have hbody : body (normalize raw) = normalize raw := by
    rw [body, trim_normalize, after?_eq_none h.unopened, Option.getD_none,
      before?_eq_none h.unclosed, Option.getD_none]
  have hcleaned : cleaned ls = ls := by
    cases ls with
    | nil => rfl
    | cons first others =>
        have hothers : others.map stripStar = others := by
          refine (List.map_congr_left fun line hline => ?_).trans (List.map_id others)
          have hunstarred := h.unstarred line (by rw [hlines]; exact hline)
          rw [stripStar_of_not_isStarred hunstarred]
          exact (hls line (List.mem_cons_of_mem _ hline)).1.trim_eq
        rw [cleaned, hothers, (hls first List.mem_cons_self).1.trim_eq]
  rw [normalize_eq_trim_join, hbody, hlines, hcleaned, ← hjoin, trim_normalize]

/-! ### Line ends -/

theorem body_unifyLineEnds (t : Text) : body (unifyLineEnds t) = unifyLineEnds (body t) := by
  have hopening (u : Text) : (after? ['/', '*', '*'] (unifyLineEnds u)).getD (unifyLineEnds u) =
      unifyLineEnds ((after? ['/', '*', '*'] u).getD u) := by
    rw [after?_unifyLineEnds (by simp [isBlank]), Option.getD_map]
  have hclosing (u : Text) : (before? ['*', '/'] (unifyLineEnds u)).getD (unifyLineEnds u) =
      unifyLineEnds ((before? ['*', '/'] u).getD u) := by
    rw [before?_unifyLineEnds (by simp [isBlank]), Option.getD_map]
  rw [body, body, trim_unifyLineEnds, hopening, hclosing]

/-- Its line ends change nothing that a comment says. -/
theorem normalize_unifyLineEnds (t : Text) : normalize (unifyLineEnds t) = normalize t := by
  rw [normalize, body_unifyLineEnds, lines_unifyLineEnds, normalize]

end DocPress.Comment
