import DocPress.Pdf.Wrap
import DocPress.Proofs.Text.Words
import Mathlib.Data.List.Chain
import Mathlib.Data.List.Forall2

/-!
# Wrapped texts

Wrapping a text gives at least one line (`wrap_ne_nil`) and keeps all its words in
order (`words_wrap`), whatever lines are too wide.

A wrap of a paragraph is a cut of its words into rows.  The greedy cut is described without
the loop that makes it: a row never was too wide with two or more words on it, and the first
word of the next row has no room on it (`GreedyRows`).  There is one such cut for each
paragraph, and it is the one that is made (`wrapParagraph_eq_iff`).
-/

namespace DocPress.Pdf

open Text

theorem wrapWords_ne_nil (tooWide : Text → Bool) (current : Text) (ws : List Text) :
    wrapWords tooWide current ws ≠ [] := by
  fun_induction wrapWords tooWide current ws <;> simp_all

theorem wrap_ne_nil (tooWide : Text → Bool) (t : Text) : wrap tooWide t ≠ [] := by
  have hparagraphs : paragraphs t ≠ [] := by
    rw [paragraphs]
    split <;> simp_all
  obtain ⟨first, more, hfirst⟩ := List.exists_cons_of_ne_nil hparagraphs
  rw [wrap, hfirst, List.flatMap_cons]
  exact List.append_ne_nil_of_left_ne_nil (wrapWords_ne_nil _ _ _) _

theorem words_wrapWords (tooWide : Text → Bool) {current : Text} {ws : List Text}
    (hws : ∀ w ∈ ws, IsWord w) :
    (wrapWords tooWide current ws).flatMap words = words current ++ ws := by
  -- on the words that are left; the current line holds those that were taken
  induction ws generalizing current with
  | nil => simp [wrapWords]
  | cons word more ih =>
      obtain ⟨hword, hmore⟩ := List.forall_mem_cons.1 hws
      rw [wrapWords]
      split
      · next hempty =>
          rw [ih hmore, hword.words_eq, List.isEmpty_iff.1 hempty, words_nil]
          rfl
      · dsimp only
        split
        · rw [List.flatMap_cons, ih hmore, hword.words_eq]
          rfl
        · rw [ih hmore, words_append_blank (by decide), hword.words_eq, List.append_assoc]
          rfl

/-- Wrapping keeps all words. -/
theorem words_wrap (tooWide : Text → Bool) (t : Text) :
    (wrap tooWide t).flatMap words = words t := by
  have hparagraph : ∀ paragraph, (wrapParagraph tooWide paragraph).flatMap words =
      words paragraph := fun paragraph => by
    rw [wrapParagraph, words_wrapWords tooWide isWord_of_mem_words, words_nil, List.nil_append]
  have hparagraphs : (paragraphs t).flatMap words = words t := by
    rw [← words_lines t, paragraphs]
    split
    · next hnil => rw [hnil, List.flatMap_singleton, words_nil]; rfl
    · rfl
  rw [wrap, List.flatMap_assoc]
  simp only [hparagraph, hparagraphs]

/-! ### Greedy rows of words -/

/-- The lines of a paragraph, wrapped greedily.  `tooWide` tells the lines that measure more
than the width. -/
structure IsGreedyWrap (tooWide : Text → Bool) (paragraph : Text) (ls : List Text) : Prop where
  ne_nil : ls ≠ []
  blank : words paragraph = [] → ls = [[]]
  filled : words paragraph ≠ [] → ∀ line ∈ ls, words line ≠ []
  words_eq : ls.flatMap words = words paragraph
  spaced : ∀ line ∈ ls, line = join [' '] (words line)
  /-- A line of two or more words is not too wide, and it was not when it was shorter. -/
  fits : ∀ line ∈ ls, ∀ ws, ws <+: words line → 2 ≤ ws.length → tooWide (join [' '] ws) = false
  /-- The first word of a line had no room on the line before. -/
  full : ls.IsChain fun line next =>
    ∃ word more, words next = word :: more ∧ tooWide (line ++ ' ' :: word) = true

/-- Rows of words that a greedy wrap may set: no row is empty, no beginning of a row with two
or more words is too wide, and the first word of a row has no room on the row before. -/
structure GreedyRows (tooWide : Text → Bool) (rows : List (List Text)) : Prop where
  ne_nil : ∀ row ∈ rows, row ≠ []
  fits : ∀ row ∈ rows, ∀ ws, ws <+: row → 2 ≤ ws.length → tooWide (join [' '] ws) = false
  full : rows.IsChain fun row next => ∀ word ∈ next.head?,
    tooWide (join [' '] row ++ ' ' :: word) = true

section rows

variable {tooWide : Text → Bool} {taken ws : List Text}

theorem join_ne_nil (hwords : ∀ w ∈ taken, IsWord w) (hne : taken ≠ []) :
    join [' '] taken ≠ [] := by
  cases taken with
  | nil => exact absurd rfl hne
  | cons w more =>
      have hw := (hwords w List.mem_cons_self).ne_nil
      cases more with
      | nil => rwa [join, List.intercalate_singleton]
      | cons next more =>
          rw [join_cons (by simp)]
          exact List.append_ne_nil_of_left_ne_nil hw _

/-- One word of a paragraph is put on the current line or begins the next one. -/
theorem wrapWords_cons (hwords : ∀ w ∈ taken, IsWord w) (hne : taken ≠ []) (word : Text) :
    wrapWords tooWide (join [' '] taken) (word :: ws) =
      if tooWide (join [' '] taken ++ ' ' :: word) then
        join [' '] taken :: wrapWords tooWide (join [' '] [word]) ws
      else wrapWords tooWide (join [' '] (taken ++ [word])) ws := by
  have hcurrent : ¬ (join [' '] taken).isEmpty := by simpa using join_ne_nil hwords hne
  rw [wrapWords, if_neg hcurrent, join_concat hne, join, join, List.intercalate_singleton]
  rfl

/-- A single word is never too wide to be set. -/
theorem fits_singleton (word : Text) :
    ∀ us, us <+: [word] → 2 ≤ us.length → tooWide (join [' '] us) = false := by
  intro us hus hlength
  have hle := hus.length_le
  simp only [List.length_singleton] at hle
  omega

/-- The lines of a paragraph are greedy rows of its words. -/
theorem exists_greedyRows (htaken : ∀ w ∈ taken, IsWord w) (hws : ∀ w ∈ ws, IsWord w)
    (hne : taken ≠ [])
    (hfits : ∀ us, us <+: taken → 2 ≤ us.length → tooWide (join [' '] us) = false) :
    ∃ row more, GreedyRows tooWide (row :: more) ∧ taken <+: row ∧
      (row :: more).flatten = taken ++ ws ∧
      wrapWords tooWide (join [' '] taken) ws = (row :: more).map (join [' ']) := by
  -- on the words that are left; the current line holds those that were taken
  induction ws generalizing taken with
  | nil =>
      refine ⟨taken, [], ⟨by simpa using hne, by simpa using hfits, .singleton _⟩,
        List.prefix_refl _, by simp, rfl⟩
  | cons word more ih =>
      obtain ⟨hword, hmore⟩ := List.forall_mem_cons.1 hws
      rw [wrapWords_cons htaken hne]
      split
      · next hwide =>
          obtain ⟨row, rows, hgreedy, ⟨rest, hrow⟩, hflatten, heq⟩ :=
            @ih [word] (by simpa using hword) hmore (by simp) (fits_singleton word)
          refine ⟨taken, row :: rows, ⟨?_, ?_, ?_⟩, List.prefix_refl _, ?_, ?_⟩
          · exact List.forall_mem_cons.2 ⟨hne, hgreedy.ne_nil⟩
          · exact List.forall_mem_cons.2 ⟨hfits, hgreedy.fits⟩
          · refine .cons_cons (fun w hw => ?_) hgreedy.full
            rw [← hrow] at hw
            obtain rfl : word = w := by simpa using hw
            exact hwide
          · rw [List.flatten_cons, hflatten]
            rfl
          · rw [heq]
            rfl
      · next hfit =>
          have hlonger : ∀ us, us <+: taken ++ [word] → 2 ≤ us.length →
              tooWide (join [' '] us) = false := by
            intro us hus hlength
            rcases List.prefix_concat_iff.1 hus with rfl | hus
            · rw [join_concat hne]
              simpa using hfit
            · exact hfits us hus hlength
          obtain ⟨row, rows, hgreedy, hrow, hflatten, heq⟩ := @ih (taken ++ [word])
            (by simpa [or_imp, forall_and] using ⟨htaken, hword⟩) hmore (by simp) hlonger
          refine ⟨row, rows, hgreedy, (List.prefix_append _ _).trans hrow, ?_, heq⟩
          rw [hflatten, List.append_assoc]
          rfl

/-- Only one way to set words in rows is greedy. -/
theorem wrapWords_eq_of_greedyRows {row : List Text} {more : List (List Text)}
    (hgreedy : GreedyRows tooWide (row :: more)) (htaken : ∀ w ∈ taken, IsWord w)
    (hws : ∀ w ∈ ws, IsWord w) (hne : taken ≠ []) (hrow : taken <+: row)
    (hflatten : (row :: more).flatten = taken ++ ws) :
    wrapWords tooWide (join [' '] taken) ws = (row :: more).map (join [' ']) := by
  induction ws generalizing taken row more with
  | nil =>
      obtain ⟨rest, rfl⟩ := hrow
      have hnil : rest ++ more.flatten = [] := by simpa using hflatten
      obtain ⟨rfl, hmore⟩ := List.append_eq_nil_iff.1 hnil
      have hrows : more = [] := by
        refine List.eq_nil_iff_forall_not_mem.2 fun other hother => ?_
        exact hgreedy.ne_nil other (List.mem_cons_of_mem _ hother)
          (List.flatten_eq_nil_iff.1 hmore other hother)
      rw [hrows, List.append_nil]
      rfl
  | cons word others ih =>
      obtain ⟨hword, hothers⟩ := List.forall_mem_cons.1 hws
      obtain ⟨rest, rfl⟩ := hrow
      rw [wrapWords_cons htaken hne]
      have hrest : rest ++ more.flatten = word :: others := by simpa using hflatten
      cases rest with
      | cons w rest =>
          obtain ⟨rfl, hrest⟩ := List.cons.inj hrest
          have hprefix : taken ++ [w] <+: taken ++ w :: rest := by simp
          have hfit := hgreedy.fits _ List.mem_cons_self _ hprefix (by
            have := List.length_pos_of_ne_nil hne
            simp
            omega)
          rw [join_concat hne] at hfit
          rw [if_neg (by simpa using hfit)]
          exact ih hgreedy (by simpa [or_imp, forall_and] using ⟨htaken, hword⟩) hothers
            (by simp) hprefix (by simpa using hrest)
      | nil =>
          rw [List.append_nil] at hgreedy ⊢
          cases more with
          | nil => simp at hrest
          | cons next more =>
              obtain ⟨hfirst, hchain⟩ := List.isChain_cons_cons.1 hgreedy.full
              have hnext : next ≠ [] := hgreedy.ne_nil next (by simp)
              obtain ⟨w, next, rfl⟩ := List.exists_cons_of_ne_nil hnext
              obtain ⟨rfl, hrest⟩ : w = word ∧ next ++ more.flatten = others := by
                simpa using hrest
              rw [if_pos (hfirst w rfl), List.map_cons]
              congr 1
              refine ih ⟨?_, ?_, hchain⟩ (by simpa using hword) hothers (by simp) (by simp)
                (by simp [← hrest])
              · exact fun r hr => hgreedy.ne_nil r (List.mem_cons_of_mem _ hr)
              · exact fun r hr => hgreedy.fits r (List.mem_cons_of_mem _ hr)

theorem wrapParagraph_of_words {paragraph word : Text} (h : words paragraph = word :: ws) :
    wrapParagraph tooWide paragraph = wrapWords tooWide (join [' '] [word]) ws := by
  rw [wrapParagraph, h, wrapWords, join, List.intercalate_singleton]
  rfl

theorem wrapParagraph_of_blank {paragraph : Text} (h : words paragraph = []) :
    wrapParagraph tooWide paragraph = [[]] := by
  rw [wrapParagraph, h, wrapWords]

/-- Greedy rows of the words of a paragraph, written out, wrap it greedily. -/
theorem GreedyRows.isGreedyWrap {rows : List (List Text)} (h : GreedyRows tooWide rows)
    {paragraph : Text} (hne : words paragraph ≠ []) (hflatten : rows.flatten = words paragraph) :
    IsGreedyWrap tooWide paragraph (rows.map (join [' '])) := by
  have hword : ∀ row ∈ rows, ∀ w ∈ row, IsWord w := fun row hrow w hw =>
    isWord_of_mem_words w (hflatten ▸ List.mem_flatten_of_mem hrow hw)
  have hwords : ∀ row ∈ rows, words (join [' '] row) = row := fun row hrow =>
    words_join_blank (hword row hrow)
  refine ⟨?_, fun hnil => absurd hnil hne, fun _ => ?_, ?_, ?_, ?_, ?_⟩
  · rintro hnil
    rw [List.map_eq_nil_iff.1 hnil] at hflatten
    exact hne hflatten.symm
  · refine List.forall_mem_map.2 fun row hrow => ?_
    rw [hwords row hrow]
    exact h.ne_nil row hrow
  · rw [List.flatMap_map, ← hflatten, List.flatten_eq_flatMap]
    exact List.flatMap_congr fun row hrow => hwords row hrow
  · exact List.forall_mem_map.2 fun row hrow => by rw [hwords row hrow]
  · refine List.forall_mem_map.2 fun row hrow => ?_
    rw [hwords row hrow]
    exact h.fits row hrow
  · refine (List.isChain_map _).2 (h.full.imp_of_mem_imp fun row next hrow hnext hfull => ?_)
    rw [hwords next hnext]
    obtain ⟨w, more, heq⟩ := List.exists_cons_of_ne_nil (h.ne_nil next hnext)
    exact ⟨w, more, heq, hfull w (heq ▸ rfl)⟩

/-- The lines of a greedy wrap, taken as rows of words. -/
theorem IsGreedyWrap.greedyRows {paragraph : Text} {ls : List Text}
    (h : IsGreedyWrap tooWide paragraph ls) (hne : words paragraph ≠ []) :
    GreedyRows tooWide (ls.map words) := by
  refine ⟨List.forall_mem_map.2 (h.filled hne), List.forall_mem_map.2 h.fits, ?_⟩
  refine (List.isChain_map _).2 (h.full.imp_of_mem_imp fun line next hline hnext hfull => ?_)
  rintro w hw
  obtain ⟨word, more, hwords, hwide⟩ := hfull
  rw [hwords] at hw
  obtain rfl := Option.some.inj hw
  rwa [← h.spaced line hline]

/-- The lines of a paragraph are its greedy wrap, and no other lines are. -/
theorem wrapParagraph_eq_iff {paragraph : Text} {ls : List Text} :
    wrapParagraph tooWide paragraph = ls ↔ IsGreedyWrap tooWide paragraph ls := by
  cases hwords : words paragraph with
  | nil =>
      rw [wrapParagraph_of_blank hwords]
      constructor
      · rintro rfl
        exact ⟨by simp, fun _ => rfl, fun hne => absurd hwords hne, by simp [hwords, words_nil],
          by simp [words_nil, join], by simp [words_nil], .singleton _⟩
      · exact fun h => (h.blank hwords).symm
  | cons word ws =>
      have hall : IsWord word ∧ ∀ w ∈ ws, IsWord w :=
        List.forall_mem_cons.1 (hwords ▸ isWord_of_mem_words)
      have hne : words paragraph ≠ [] := by simp [hwords]
      have hone : ∀ w ∈ [word], IsWord w := by simpa using hall.1
      rw [wrapParagraph_of_words hwords]
      constructor
      · rintro rfl
        obtain ⟨row, more, hgreedy, -, hflatten, heq⟩ :=
          exists_greedyRows hone hall.2 (by simp) (@fits_singleton tooWide word)
        rw [heq]
        exact hgreedy.isGreedyWrap hne (hflatten.trans hwords.symm)
      · intro h
        have hrows := h.greedyRows hne
        have hlines : ls = (ls.map words).map (join [' ']) := by
          rw [List.map_map]
          conv_lhs => rw [← List.map_id ls]
          exact List.map_congr_left fun line hline => h.spaced line hline
        have hflatten : (ls.map words).flatten = word :: ws := by
          rw [← hwords, ← h.words_eq, List.flatMap_def]
        cases hmap : ls.map words with
        | nil =>
            rw [hmap] at hflatten
            cases hflatten
        | cons row more =>
            rw [hmap] at hrows hflatten hlines
            obtain ⟨first, row, rfl⟩ := List.exists_cons_of_ne_nil
              (hrows.ne_nil row List.mem_cons_self)
            obtain rfl : first = word := (List.cons.inj hflatten).1
            rw [hlines]
            exact wrapWords_eq_of_greedyRows hrows hone hall.2 (by simp) (by simp) hflatten

end rows

theorem paragraphs_eq (t : Text) : paragraphs t = if t = [] then [[]] else lines t := by
  rw [paragraphs]
  split
  · next hnil => rw [if_pos (lines_eq_nil_iff.1 hnil)]
  · next hne =>
      rw [if_neg fun hnil => hne (lines_eq_nil_iff.2 hnil)]

/-- Wrapping a text gives, paragraph by paragraph, a greedy wrap of the paragraph.  Nothing
else does, and the words of the lines are those of the text. -/
theorem wrap_greedy (tooWide : Text → Bool) (t : Text) :
    paragraphs t = (if t = [] then [[]] else lines t) ∧
      (∃ groups, List.Forall₂ (IsGreedyWrap tooWide) (paragraphs t) groups ∧
        wrap tooWide t = groups.flatten) ∧
      (∀ groups, List.Forall₂ (IsGreedyWrap tooWide) (paragraphs t) groups →
        groups = (paragraphs t).map (wrapParagraph tooWide)) ∧
      (wrap tooWide t).flatMap words = words t := by
  refine ⟨paragraphs_eq t, ⟨(paragraphs t).map (wrapParagraph tooWide), ?_, ?_⟩, ?_, ?_⟩
  · exact List.forall₂_map_right_iff.2 (List.forall₂_same.2 fun p _ => wrapParagraph_eq_iff.1 rfl)
  · rw [wrap, List.flatMap_def]
  · intro groups hgroups
    have heq : List.Forall₂ (fun p ls => wrapParagraph tooWide p = ls) (paragraphs t) groups :=
      hgroups.imp fun p ls h => wrapParagraph_eq_iff.2 h
    exact (List.forall₂_eq_eq_eq ▸ List.forall₂_map_left_iff.2 heq).symm
  · exact words_wrap tooWide t

end DocPress.Pdf
