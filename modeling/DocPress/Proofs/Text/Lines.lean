import DocPress.Proofs.Text.Trim
import Mathlib.Data.List.Induction

/-!
# Lines

Lines hold no line end, and apart from line ends a text is all in its lines
(`visible_lines`).  Text on the same line may be added on either side of a text
(`lines_append_left`, `exists_lines_append`), and lines that are joined come apart
again (`lines_join`).  The same holds of the pieces between separators, without exception
(`splitAt_join`, `join_splitAt`).  The first lines of a text with their line ends, one after the
other, are what a reader has behind it (`firstLines`, `exists_firstLine`).
-/

namespace DocPress.Text

/-- A text without line ends. -/
def OneLine (t : Text) : Prop := ∀ c ∈ t, isBreak c = false

instance (t : Text) : Decidable (OneLine t) := List.decidableBAll _ t

theorem isBlank_of_isBreak {c : Char} (h : isBreak c = true) : isBlank c = true := by
  simp only [isBreak, isBlank, Bool.or_eq_true, Bool.and_eq_true, decide_eq_true_eq,
    beq_iff_eq] at h ⊢
  omega

theorem oneLine_append {a b : Text} : OneLine (a ++ b) ↔ OneLine a ∧ OneLine b := by
  simp [OneLine, or_imp, forall_and]

theorem OneLine.trim {t : Text} (h : OneLine t) : OneLine (trim t) := by
  obtain ⟨l, r, heq, -, -⟩ := exists_trim t
  rw [heq, oneLine_append, oneLine_append] at h
  exact h.2.1

/-! ### Cutting into lines -/

theorem lines_nil : lines [] = [] := by
  rw [lines]

theorem lines_return_feed (rest : Text) : lines ('\r' :: '\n' :: rest) = [] :: lines rest := by
  rw [lines]

theorem lines_break {c : Char} {rest : Text} (hbreak : isBreak c = true)
    (hfeed : c = '\r' → rest.head? ≠ some '\n') : lines (c :: rest) = [] :: lines rest := by
  rw [lines, if_pos hbreak]
  rintro more rfl rfl
  exact hfeed rfl rfl

theorem lines_char {c : Char} (rest : Text) (h : isBreak c = false) :
    lines (c :: rest) = (c :: (lines rest).head?.getD []) :: (lines rest).tail := by
  rw [lines, if_neg (by simp [h])]
  · cases lines rest <;> rfl
  · rintro more rfl -
    exact absurd h (by decide)

/-- A fact about lines follows from what happens at the end of a text, at a line
end of two characters, at one of one character and at any other character. -/
theorem lines_induction {motive : Text → Prop} (nil : motive [])
    (pair : ∀ rest, motive rest → motive ('\r' :: '\n' :: rest))
    (single : ∀ c rest, isBreak c = true → (c = '\r' → rest.head? ≠ some '\n') → motive rest →
      motive (c :: rest))
    (char : ∀ c rest, isBreak c = false → motive rest → motive (c :: rest)) (t : Text) :
    motive t := by
  induction t using lines.induct with
  | case1 => exact nil
  | case2 rest ih => exact pair rest ih
  | case3 c rest hpair hbreak ih =>
      refine single c rest hbreak (fun hreturn hfeed => ?_) ih
      obtain ⟨more, hmore⟩ := List.head?_eq_some_iff.1 hfeed
      exact hpair more hreturn hmore
  | case4 c rest _ hbreak _ ih => exact char c rest (eq_false_of_ne_true hbreak) ih
  | case5 c rest _ hbreak _ _ _ ih => exact char c rest (eq_false_of_ne_true hbreak) ih

theorem oneLine_of_mem_lines {t : Text} : ∀ line ∈ lines t, OneLine line := by
  induction t using lines_induction with
  | nil => simp [lines_nil]
  | pair rest ih =>
      rw [lines_return_feed]
      exact List.forall_mem_cons.2 ⟨fun c hc => (nomatch hc), ih⟩
  | single c rest hbreak hfeed ih =>
      rw [lines_break hbreak hfeed]
      exact List.forall_mem_cons.2 ⟨fun c hc => (nomatch hc), ih⟩
  | char c rest hbreak ih =>
      rw [lines_char rest hbreak]
      cases hrest : lines rest with
      | nil =>
          refine List.forall_mem_cons.2 ⟨?_, fun line hline => nomatch hline⟩
          simpa [OneLine] using hbreak
      | cons first more =>
          rw [hrest] at ih
          obtain ⟨hfirst, hmore⟩ := List.forall_mem_cons.1 ih
          refine List.forall_mem_cons.2 ⟨fun d hd => ?_, hmore⟩
          rcases List.mem_cons.1 hd with rfl | hd
          · exact hbreak
          · exact hfirst d hd

/-- The first line of a text begins as the text does. -/
theorem head?_of_lines_eq_cons {t first : Text} {more : List Text} {c : Char}
    (h : lines t = first :: more) (hhead : first.head? = some c) : t.head? = some c := by
  induction t using lines_induction with
  | nil => rw [lines_nil] at h; cases h
  | pair rest ih =>
      rw [lines_return_feed] at h
      obtain ⟨rfl, -⟩ := List.cons.inj h
      cases hhead
  | single d rest hbreak hfeed ih =>
      rw [lines_break hbreak hfeed] at h
      obtain ⟨rfl, -⟩ := List.cons.inj h
      cases hhead
  | char d rest hbreak ih =>
      rw [lines_char rest hbreak] at h
      obtain ⟨rfl, -⟩ := List.cons.inj h
      exact hhead

/-- Line ends apart, a text is all in its lines. -/
theorem visible_lines (t : Text) : (lines t).flatMap visible = visible t := by
  have hcons : ∀ {c : Char} (rest : Text), isBreak c = true →
      visible (c :: rest) = visible rest := by
    intro c rest hbreak
    simp [visible, isBlank_of_isBreak hbreak]
  induction t using lines_induction with
  | nil => rfl
  | pair rest ih => rw [lines_return_feed, List.flatMap_cons, ih]; rfl
  | single c rest hbreak hfeed ih =>
      rw [lines_break hbreak hfeed, List.flatMap_cons, ih, hcons rest hbreak]
      rfl
  | char c rest hbreak ih =>
      rw [lines_char rest hbreak, List.flatMap_cons, ← List.singleton_append, visible_append,
        List.append_assoc, ← List.singleton_append (l := rest), visible_append, ← ih]
      cases lines rest <;> rfl

/-! ### Text added to a line -/

/-- Text before a text is added to its first line. -/
theorem lines_append_left {x : Text} (hx : OneLine x) {t first : Text} {more : List Text}
    (h : lines t = first :: more) : lines (x ++ t) = (x ++ first) :: more := by
  induction x with
  | nil => exact h
  | cons c x ih =>
      have hx' : OneLine x := fun d hd => hx d (List.mem_cons_of_mem _ hd)
      rw [List.cons_append, lines_char _ (hx c List.mem_cons_self), ih hx']
      rfl

theorem lines_of_oneLine {t : Text} (h : OneLine t) (hne : t ≠ []) : lines t = [t] := by
  induction t with
  | nil => exact absurd rfl hne
  | cons c t ih =>
      rw [lines_char _ (h c List.mem_cons_self)]
      cases t with
      | nil => rfl
      | cons d t =>
          rw [ih (fun x hx => h x (List.mem_cons_of_mem _ hx)) (by simp)]
          rfl

/-- Text after a text is added to its last line, or makes a line of its own where
the text ends with a line end or is empty. -/
theorem exists_lines_append {e : Text} (he : OneLine e) (hne : e ≠ []) (t : Text) :
    ∃ ls last, lines (t ++ e) = ls ++ [last ++ e] ∧
      (lines t = ls ++ [last] ∨ last = [] ∧ lines t = ls) := by
  induction t using lines_induction with
  | nil => exact ⟨[], [], lines_of_oneLine he hne, .inr ⟨rfl, lines_nil⟩⟩
  | pair rest ih =>
      obtain ⟨ls, last, happend, hrest⟩ := ih
      refine ⟨[] :: ls, last, ?_, ?_⟩
      · rw [List.cons_append, List.cons_append, lines_return_feed, happend, List.cons_append]
      · rw [lines_return_feed]
        exact hrest.imp (fun h => by rw [h]; rfl) fun ⟨hlast, h⟩ => ⟨hlast, by rw [h]⟩
  | single c rest hbreak hfeed ih =>
      obtain ⟨ls, last, happend, hrest⟩ := ih
      -- what is added begins with no line feed, so it completes no line end
      have hfeed' : c = '\r' → (rest ++ e).head? ≠ some '\n' := by
        intro hreturn
        cases rest with
        | nil =>
            intro hhead
            exact absurd (he _ (List.mem_of_mem_head? hhead)) (by decide)
        | cons d rest => exact hfeed hreturn
      refine ⟨[] :: ls, last, ?_, ?_⟩
      · rw [List.cons_append, lines_break hbreak hfeed', happend, List.cons_append]
      · rw [lines_break hbreak hfeed]
        exact hrest.imp (fun h => by rw [h]; rfl) fun ⟨hlast, h⟩ => ⟨hlast, by rw [h]⟩
  | char c rest hbreak ih =>
      obtain ⟨ls, last, happend, hrest⟩ := ih
      cases ls with
      | nil =>
          refine ⟨[], c :: last, ?_, .inl ?_⟩
          · rw [List.cons_append, lines_char _ hbreak, happend]
            rfl
          · rw [lines_char _ hbreak]
            rcases hrest with h | ⟨rfl, h⟩ <;> rw [h] <;> rfl
      | cons first ls =>
          refine ⟨(c :: first) :: ls, last, ?_, ?_⟩
          · rw [List.cons_append, lines_char _ hbreak, happend]
            rfl
          · rw [lines_char _ hbreak]
            exact hrest.imp (fun h => by rw [h]; rfl) fun ⟨hlast, h⟩ => ⟨hlast, by rw [h]; rfl⟩

/-! ### Lines joined -/

theorem join_cons {sep t : Text} {ts : List Text} (h : ts ≠ []) :
    join sep (t :: ts) = t ++ (sep ++ join sep ts) := by
  rw [join, List.intercalate_cons_of_ne_nil h, List.append_assoc, join]

theorem join_concat {sep t : Text} {ts : List Text} (h : ts ≠ []) :
    join sep (ts ++ [t]) = join sep ts ++ (sep ++ t) := by
  induction ts with
  | nil => exact absurd rfl h
  | cons a more ih =>
      cases more with
      | nil => simp [join]
      | cons b more =>
          have hne : b :: more ≠ [] := by simp
          rw [List.cons_append, join_cons (by simp), ih hne, join_cons hne, List.append_assoc,
            List.append_assoc]

theorem mem_of_mem_join {sep : Text} {ts : List Text} {c : Char} (h : c ∈ join sep ts) :
    c ∈ sep ∨ ∃ t ∈ ts, c ∈ t := by
  induction ts with
  | nil => exact nomatch h
  | cons t more ih =>
      cases more with
      | nil =>
          rw [join, List.intercalate_singleton] at h
          exact .inr ⟨t, List.mem_cons_self, h⟩
      | cons next more =>
          rw [join_cons (by simp), List.mem_append, List.mem_append] at h
          rcases h with h | h | h
          · exact .inr ⟨t, List.mem_cons_self, h⟩
          · exact .inl h
          · exact (ih h).imp_right fun ⟨u, hu, hc⟩ => ⟨u, List.mem_cons_of_mem _ hu, hc⟩

/-- Lines that are joined come apart again, if the last one is not empty. -/
theorem lines_join {ls : List Text} (hone : ∀ line ∈ ls, OneLine line)
    (hlast : ls.getLast? ≠ some []) : lines (join ['\n'] ls) = ls := by
  induction ls with
  | nil => rfl
  | cons line more ih =>
      have hline := hone line List.mem_cons_self
      cases more with
      | nil =>
          refine (congrArg lines List.intercalate_singleton).trans (lines_of_oneLine hline ?_)
          rintro rfl
          exact hlast rfl
      | cons next more =>
          have hrest := ih (fun l hl => hone l (List.mem_cons_of_mem _ hl)) (by simpa using hlast)
          have hfeed : lines ('\n' :: join ['\n'] (next :: more)) = [] :: next :: more := by
            rw [lines_break (by decide) (fun h => absurd h (by decide)), hrest]
          rw [join_cons (by simp)]
          exact (lines_append_left hline hfeed).trans (by rw [List.append_nil])

/-- Joined by line feeds, lines hold what is visible in them. -/
theorem visible_join (ls : List Text) : visible (join ['\n'] ls) = ls.flatMap visible := by
  induction ls with
  | nil => rfl
  | cons line more ih =>
      cases more with
      | nil => simp [join]
      | cons next more =>
          rw [join_cons (by simp), visible_append, visible_append, ih]
          rfl

/-! ### Pieces between separators -/

theorem splitAt_cons_self (sep : Char) (t : Text) :
    splitAt sep (sep :: t) = [] :: splitAt sep t := by
  rw [splitAt, if_pos rfl]

theorem exists_splitAt (sep : Char) (t : Text) : ∃ piece more, splitAt sep t = piece :: more := by
  cases t with
  | nil => exact ⟨[], [], rfl⟩
  | cons c t =>
      rw [splitAt]
      split
      · exact ⟨_, _, rfl⟩
      · split <;> exact ⟨_, _, rfl⟩

theorem splitAt_cons_of_ne {sep c : Char} (hc : c ≠ sep) {t piece : Text} {more : List Text}
    (ht : splitAt sep t = piece :: more) : splitAt sep (c :: t) = (c :: piece) :: more := by
  rw [splitAt, if_neg hc, ht]

/-- Text without the separator is added to the first piece. -/
theorem splitAt_append_left {sep : Char} {x : Text} (hx : sep ∉ x) {t piece : Text}
    {more : List Text} (ht : splitAt sep t = piece :: more) :
    splitAt sep (x ++ t) = (x ++ piece) :: more := by
  induction x with
  | nil => exact ht
  | cons c x ih =>
      have hc : c ≠ sep := fun heq => hx (heq ▸ List.mem_cons_self)
      exact splitAt_cons_of_ne hc (ih fun hmem => hx (List.mem_cons_of_mem _ hmem))

theorem splitAt_of_notMem {sep : Char} {t : Text} (h : sep ∉ t) : splitAt sep t = [t] := by
  have hpieces : splitAt sep [] = [[]] := rfl
  simpa using splitAt_append_left h hpieces

/-- A separator parts the pieces before it from those behind it. -/
theorem splitAt_append_cons (sep : Char) (a b : Text) :
    splitAt sep (a ++ sep :: b) = splitAt sep a ++ splitAt sep b := by
  induction a with
  | nil => exact splitAt_cons_self sep b
  | cons c a ih =>
      by_cases hc : c = sep
      · rw [hc, List.cons_append, splitAt_cons_self, splitAt_cons_self, ih, List.cons_append]
      · obtain ⟨piece, more, hpieces⟩ := exists_splitAt sep a
        rw [hpieces, List.cons_append] at ih
        rw [List.cons_append, splitAt_cons_of_ne hc ih, splitAt_cons_of_ne hc hpieces,
          List.cons_append]

theorem splitAt_join {sep : Char} {ts : List Text} (hne : ts ≠ []) :
    splitAt sep (join [sep] ts) = ts.flatMap (splitAt sep) := by
  induction ts with
  | nil => exact absurd rfl hne
  | cons t more ih =>
      cases more with
      | nil => rw [join, List.intercalate_singleton, List.flatMap_singleton]
      | cons next more =>
          rw [join_cons (by simp), List.singleton_append, splitAt_append_cons, ih (by simp)]
          rfl

/-- Texts without the separator that are joined by it come apart again. -/
theorem splitAt_join_of_notMem {sep : Char} {ts : List Text} (hne : ts ≠ [])
    (h : ∀ t ∈ ts, sep ∉ t) : splitAt sep (join [sep] ts) = ts := by
  have hpieces : ts.flatMap (splitAt sep) = ts.flatMap fun t => [t] :=
    List.flatMap_congr fun t ht => splitAt_of_notMem (h t ht)
  rw [splitAt_join hne, hpieces, List.flatMap_singleton']

theorem mem_join {sep : Text} {ts : List Text} {t : Text} (ht : t ∈ ts) {c : Char} (hc : c ∈ t) :
    c ∈ join sep ts := by
  induction ts with
  | nil => cases ht
  | cons first more ih =>
      cases more with
      | nil =>
          obtain rfl := List.mem_singleton.1 ht
          rwa [join, List.intercalate_singleton]
      | cons next more =>
          rw [join_cons (by simp), List.mem_append, List.mem_append]
          rcases List.mem_cons.1 ht with rfl | hmore
          · exact .inl hc
          · exact .inr (.inr (ih hmore))

/-- The pieces of a text, joined again, are the text. -/
theorem join_splitAt (sep : Char) (t : Text) : join [sep] (splitAt sep t) = t := by
  induction t with
  | nil => rfl
  | cons c t ih =>
      obtain ⟨piece, more, hpieces⟩ := exists_splitAt sep t
      rw [hpieces] at ih
      by_cases hc : c = sep
      · rw [hc, splitAt_cons_self, hpieces, join_cons (by simp), ih]
        rfl
      · rw [splitAt_cons_of_ne hc hpieces, ← ih]
        cases more with
        | nil => rw [join, List.intercalate_singleton, join, List.intercalate_singleton]
        | cons next more =>
            have hne : next :: more ≠ [] := by simp
            rw [join_cons hne, join_cons hne, List.cons_append]

theorem mem_of_mem_splitAt {sep : Char} {t piece : Text} (hpiece : piece ∈ splitAt sep t) {c : Char}
    (hc : c ∈ piece) : c ∈ t := by
  rw [← join_splitAt sep t]
  exact mem_join hpiece hc

/-! ### Joined lines trimmed -/

theorem isTrimmed_join {ls : List Text} (htrimmed : ∀ line ∈ ls, IsTrimmed line)
    (hhead : ls.head? ≠ some []) (hlast : ls.getLast? ≠ some []) : IsTrimmed (join ['\n'] ls) := by
  constructor
  · cases ls with
    | nil => exact fun c hc => nomatch hc
    | cons line more =>
        have hne : line ≠ [] := fun h => hhead (h ▸ rfl)
        have hjoin : (join ['\n'] (line :: more)).head? = line.head? := by
          cases more with
          | nil => simp [join]
          | cons next more => rw [join_cons (by simp), List.head?_append_of_ne_nil _ hne]
        rw [hjoin]
        exact (htrimmed line List.mem_cons_self).head
  · rcases List.eq_nil_or_concat' ls with rfl | ⟨more, line, rfl⟩
    · exact fun c hc => nomatch hc
    · have hne : line ≠ [] := fun h => hlast (by simp [h])
      have hjoin : (join ['\n'] (more ++ [line])).getLast? = line.getLast? := by
        cases more with
        | nil => simp [join]
        | cons first more =>
            rw [join_concat (by simp), ← List.append_assoc, List.getLast?_append_of_ne_nil _ hne]
      rw [hjoin]
      exact (htrimmed line (List.mem_append_right _ List.mem_cons_self)).last

/-- Trimming joined lines drops the empty ones at the beginning. -/
theorem exists_trim_join_left (ls : List Text) :
    ∃ kept, (∀ line ∈ kept, line ∈ ls) ∧ kept.head? ≠ some [] ∧
      trim (join ['\n'] ls) = trim (join ['\n'] kept) := by
  induction ls with
  | nil => exact ⟨[], by simp, by simp, rfl⟩
  | cons line more ih =>
      by_cases hempty : line = []
      · obtain ⟨kept, hmem, hhead, htrim⟩ := ih
        refine ⟨kept, fun l hl => List.mem_cons_of_mem _ (hmem l hl), hhead, ?_⟩
        rw [hempty, ← htrim]
        cases more with
        | nil => rfl
        | cons next more =>
            rw [join_cons (by simp), List.nil_append]
            exact trim_append_left (by decide) _
      · exact ⟨line :: more, fun l hl => hl, fun h => hempty (Option.some.inj h), rfl⟩

/-- Trimming joined lines drops the empty ones at the end. -/
theorem exists_trim_join_right (ls : List Text) (hhead : ls.head? ≠ some []) :
    ∃ kept, (∀ line ∈ kept, line ∈ ls) ∧ kept.head? ≠ some [] ∧ kept.getLast? ≠ some [] ∧
      trim (join ['\n'] ls) = trim (join ['\n'] kept) := by
  induction ls using List.reverseRecOn with
  | nil => exact ⟨[], by simp, by simp, by simp, rfl⟩
  | append_singleton more line ih =>
      by_cases hempty : line = []
      · have hne : more ≠ [] := by
          rintro rfl
          exact hhead (by simp [hempty])
        rw [List.head?_append_of_ne_nil _ hne] at hhead
        obtain ⟨kept, hmem, hhead', hlast, htrim⟩ := ih hhead
        refine ⟨kept, fun l hl => List.mem_append_left _ (hmem l hl), hhead', hlast, ?_⟩
        rw [hempty, join_concat hne, ← htrim]
        exact trim_append_right (by decide) _
      · refine ⟨more ++ [line], fun l hl => hl, hhead, ?_, rfl⟩
        simpa using hempty

/-- Trimming joined lines drops the empty ones at either end. -/
theorem exists_trim_join {ls : List Text} (htrimmed : ∀ line ∈ ls, IsTrimmed line) :
    ∃ kept, (∀ line ∈ kept, line ∈ ls) ∧ kept.getLast? ≠ some [] ∧
      trim (join ['\n'] ls) = join ['\n'] kept := by
  obtain ⟨some, hsome, hhead, hleft⟩ := exists_trim_join_left ls
  obtain ⟨kept, hkept, hhead', hlast, hright⟩ := exists_trim_join_right some hhead
  have hmem : ∀ line ∈ kept, line ∈ ls := fun line hline => hsome line (hkept line hline)
  refine ⟨kept, hmem, hlast, ?_⟩
  rw [hleft, hright]
  exact (isTrimmed_join (fun line hline => htrimmed line (hmem line hline)) hhead' hlast).trim_eq

/-! ### The first lines of a text -/

/-- The first `n` lines of a text with their line ends. -/
def firstLines : Nat → Text → Text
  | 0, _ => []
  | _ + 1, [] => []
  | n + 1, '\r' :: '\n' :: rest => '\r' :: '\n' :: firstLines n rest
  | n + 1, c :: rest => c :: if isBreak c then firstLines n rest else firstLines (n + 1) rest

/-- A text begins with its first line and, unless that is all, with a line end. -/
theorem exists_firstLine {t : Text} (h : t ≠ []) :
    ∃ line ending rest, t = line ++ (ending ++ rest) ∧ OneLine line ∧
      (∀ c ∈ ending, isBreak c = true) ∧ (ending = [] → rest = []) ∧
      lines t = line :: lines rest ∧
      ∀ n, firstLines (n + 1) t = line ++ (ending ++ firstLines n rest) := by
  induction t using lines_induction with
  | nil => exact absurd rfl h
  | pair rest _ =>
      have hending : ∀ c ∈ ['\r', '\n'], isBreak c = true := by
        simp only [List.forall_mem_cons]
        exact ⟨rfl, rfl, by simp⟩
      refine ⟨[], ['\r', '\n'], rest, rfl, by decide, hending, by simp, ?_, fun n => ?_⟩
      · exact lines_return_feed rest
      · rw [firstLines]
        rfl
  | single c rest hbreak hfeed _ =>
      refine ⟨[], [c], rest, rfl, by decide, by simpa using hbreak, by simp, ?_, fun n => ?_⟩
      · exact lines_break hbreak hfeed
      · rw [firstLines, if_pos hbreak]
        · rfl
        · rintro more rfl rfl
          exact hfeed rfl rfl
  | char c rest hbreak ih =>
      have hfirst : ∀ n, firstLines (n + 1) (c :: rest) = c :: firstLines (n + 1) rest := by
        intro n
        rw [firstLines, if_neg (by simp [hbreak])]
        rintro more rfl -
        exact absurd hbreak (by decide)
      rw [lines_char rest hbreak]
      by_cases hrest : rest = []
      · subst hrest
        refine ⟨[c], [], [], rfl, by simpa [OneLine] using hbreak, by simp, fun _ => rfl, ?_, ?_⟩
        · rw [lines_nil]
          rfl
        · intro n
          rw [hfirst]
          cases n <;> rfl
      · obtain ⟨line, ending, more, rfl, hone, hending, hnil, hlines, hall⟩ := ih hrest
        refine ⟨c :: line, ending, more, rfl, ?_, hending, hnil, ?_, fun n => ?_⟩
        · exact List.forall_mem_cons.2 ⟨hbreak, hone⟩
        · rw [hlines]
          rfl
        · rw [hfirst, hall]
          rfl

end DocPress.Text
