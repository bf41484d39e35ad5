import DocPress.Proofs.Text.Words
import DocPress.Text.Sentence
import Mathlib.Order.Bounds.Defs

/-!
# First sentences

The words of a text, joined by single spaces, are read up to the first period that ends a
sentence (`throughPeriod_cases`); such a period stands before a space or at the end
(`EndsSentence`).  What was read is made of words and single spaces again, because the cut
stands before a space (`join_words_of_append`), and it has no other period of that kind than its
last one (`endsSentence_take_iff`).  So it is its own first sentence.
-/

namespace DocPress.Text

/-- The period at place `i` ends a sentence: a space or the end of the text follows it. -/
structure EndsSentence (t : Text) (i : Nat) : Prop where
  period : t[i]? = some '.'
  follows : ∀ c ∈ t[i + 1]?, c = ' '

/-- A text with no other blanks than spaces. -/
def IsSpaced (t : Text) : Prop := ∀ c ∈ t, isBlank c = true → c = ' '

/-! ### The period that is found -/

theorem endsSentence_zero {c : Char} {t : Text} :
    EndsSentence (c :: t) 0 ↔ c = '.' ∧ ∀ d ∈ t.head?, d = ' ' := by
  constructor
  · intro h
    refine ⟨Option.some.inj h.period, fun d hd => h.follows d ?_⟩
    rwa [List.getElem?_cons_succ, ← List.head?_eq_getElem?]
  · rintro ⟨rfl, hnext⟩
    refine ⟨rfl, fun d hd => hnext d ?_⟩
    rwa [List.getElem?_cons_succ, ← List.head?_eq_getElem?] at hd

theorem endsSentence_succ {c : Char} {t : Text} {i : Nat} :
    EndsSentence (c :: t) (i + 1) ↔ EndsSentence t i :=
  ⟨fun h => ⟨h.period, h.follows⟩, fun h => ⟨h.period, h.follows⟩⟩

theorem throughPeriod_of_endsSentence {c : Char} {t : Text} (h : EndsSentence (c :: t) 0) :
    throughPeriod (c :: t) = [c] := by
  obtain ⟨hc, hnext⟩ := endsSentence_zero.1 h
  rw [throughPeriod.eq_def]
  dsimp only
  rw [if_pos hc]
  cases t with
  | nil => rfl
  | cons d t =>
      have hblank : isBlank d = true := by
        rw [hnext d rfl]
        decide
      exact if_pos hblank

theorem throughPeriod_of_not_endsSentence {c : Char} {t : Text}
    (hspaced : ∀ d ∈ t.head?, isBlank d = true → d = ' ') (h : ¬ EndsSentence (c :: t) 0) :
    throughPeriod (c :: t) = c :: throughPeriod t := by
  rw [throughPeriod.eq_def]
  dsimp only
  split
  · next hc =>
      cases t with
      | nil => exact absurd (endsSentence_zero.2 ⟨hc, by simp⟩) h
      | cons d t =>
          refine if_neg fun hblank => h (endsSentence_zero.2 ⟨hc, fun e he => ?_⟩)
          obtain rfl := Option.some.inj he
          exact hspaced d rfl hblank
  · rfl

/-- A text is read up to its first period that ends a sentence, or to its end. -/
theorem throughPeriod_cases {t : Text} (hspaced : IsSpaced t) :
    (throughPeriod t = t ∧ ∀ i, ¬ EndsSentence t i) ∨
      ∃ i, IsLeast {i | EndsSentence t i} i ∧ throughPeriod t = t.take (i + 1) := by
  induction t with
  | nil => exact .inl ⟨rfl, fun i h => nomatch h.period⟩
  | cons c t ih =>
      obtain ⟨-, hrest⟩ := List.forall_mem_cons.1 hspaced
      by_cases hend : EndsSentence (c :: t) 0
      · exact .inr ⟨0, ⟨hend, fun j _ => Nat.zero_le j⟩, throughPeriod_of_endsSentence hend⟩
      · have hread : throughPeriod (c :: t) = c :: throughPeriod t :=
          throughPeriod_of_not_endsSentence (fun d hd => hrest d (List.mem_of_mem_head? hd)) hend
        rcases ih hrest with ⟨hall, hnone⟩ | ⟨i, ⟨hi, hleast⟩, htake⟩
        · refine .inl ⟨by rw [hread, hall], fun i h => ?_⟩
          cases i with
          | zero => exact hend h
          | succ i => exact hnone i (endsSentence_succ.1 h)
        · refine .inr ⟨i + 1, ⟨endsSentence_succ.2 hi, fun j h => ?_⟩, ?_⟩
          · cases j with
            | zero => exact absurd h hend
            | succ j => exact Nat.succ_le_succ (hleast (endsSentence_succ.1 h))
          · rw [hread, htake, List.take_succ_cons]

/-- Up to its first period that ends a sentence, a text has no other such period. -/
theorem endsSentence_take_iff {t : Text} {i : Nat} (h : IsLeast {i | EndsSentence t i} i)
    (j : Nat) : EndsSentence (t.take (i + 1)) j ↔ j = i := by
  constructor
  · rintro ⟨hperiod, hfollows⟩
    rw [List.getElem?_take] at hperiod hfollows
    have hj : j < i + 1 := by
      by_contra hle
      rw [if_neg hle] at hperiod
      cases hperiod
    by_contra hne
    -- the character behind an earlier period is kept, so that period ends a sentence of `t`
    have hnext : j + 1 < i + 1 := by omega
    rw [if_pos hj] at hperiod
    rw [if_pos hnext] at hfollows
    have hle : i ≤ j := h.2 ⟨hperiod, hfollows⟩
    omega
  · rintro rfl
    refine ⟨?_, fun c hc => ?_⟩
    · rw [List.getElem?_take_of_lt (Nat.lt_succ_self j)]
      exact h.1.period
    · rw [List.getElem?_take, if_neg (Nat.lt_irrefl _)] at hc
      cases hc

/-! ### Words and single spaces -/

section joined

variable {ws : List Text}

theorem isSpaced_join (hws : ∀ w ∈ ws, IsWord w) : IsSpaced (join [' '] ws) := by
  intro c hc hblank
  rcases mem_of_mem_join hc with hc | ⟨w, hw, hc⟩
  · exact List.mem_singleton.1 hc
  · rw [(hws w hw).visible c hc] at hblank
    cases hblank

/-- Cut before a space, joined words are joined words on the left. -/
theorem join_words_of_append (hws : ∀ w ∈ ws, IsWord w) {a b : Text}
    (h : join [' '] ws = a ++ ' ' :: b) : join [' '] (words a) = a := by
  have hne : ws ≠ [] := by
    rintro rfl
    cases a <;> cases h
  have hspace : ∀ w ∈ ws, ' ' ∉ w := fun w hw hmem =>
    absurd ((hws w hw).visible _ hmem) (by decide)
  -- the words are the pieces between spaces, and those of `a` come first
  have hsplit : splitAt ' ' a ++ splitAt ' ' b = ws := by
    rw [← splitAt_append_cons, ← h, splitAt_join_of_notMem hne hspace]
  have hwords : ∀ w ∈ splitAt ' ' a, IsWord w := fun w hw =>
    hws w (hsplit ▸ List.mem_append_left _ hw)
  calc join [' '] (words a) = join [' '] (words (join [' '] (splitAt ' ' a))) := by
        rw [join_splitAt]
    _ = a := by rw [words_join_blank hwords, join_splitAt]

end joined

/-! ### First sentences -/

/-- A first sentence is made of words and single spaces. -/
theorem join_words_firstSentence (t : Text) :
    join [' '] (words (firstSentence t)) = firstSentence t := by
  have hwords : ∀ w ∈ words t, IsWord w := isWord_of_mem_words
  rw [firstSentence]
  rcases throughPeriod_cases (isSpaced_join hwords) with ⟨hall, -⟩ | ⟨i, ⟨hi, -⟩, htake⟩
  · rw [hall, words_join_blank hwords]
  · have hcut := List.take_append_drop (i + 1) (join [' '] (words t))
    rw [htake]
    cases hrest : (join [' '] (words t)).drop (i + 1) with
    | nil =>
        rw [hrest, List.append_nil] at hcut
        rw [hcut, words_join_blank hwords]
    | cons c rest =>
        have hnext : (join [' '] (words t))[i + 1]? = some c := by
          rw [← List.head?_drop, hrest]
          rfl
        obtain rfl := hi.follows c hnext
        exact join_words_of_append hwords (hrest ▸ hcut.symm)

theorem throughPeriod_throughPeriod {t : Text} (hspaced : IsSpaced t) :
    throughPeriod (throughPeriod t) = throughPeriod t := by
  rcases throughPeriod_cases hspaced with ⟨hall, -⟩ | ⟨i, hi, htake⟩
  · rw [hall, hall]
  · have hspaced' : IsSpaced (t.take (i + 1)) := fun c hc => hspaced c (List.mem_of_mem_take hc)
    rw [htake]
    rcases throughPeriod_cases hspaced' with ⟨hall, -⟩ | ⟨j, ⟨hj, -⟩, htake'⟩
    · exact hall
    · obtain rfl := (endsSentence_take_iff hi j).1 hj
      rw [htake', List.take_take, Nat.min_self]

/-- The first sentence of a text is a beginning of its words joined by single spaces: all of
them if no period among them ends a sentence, or else those up to the first such period, and
no other such period is in it.  It is on one line, and it is its own first sentence. -/
theorem firstSentence_through_first_period (t : Text) :
    let joined := join [' '] (words t)
    OneLine (firstSentence t) ∧ firstSentence t <+: joined ∧
      ((firstSentence t = joined ∧ ∀ i, ¬ EndsSentence joined i) ∨
        ∃ i, IsLeast {i | EndsSentence joined i} i ∧ firstSentence t = joined.take (i + 1) ∧
          ∀ j, EndsSentence (firstSentence t) j ↔ j = i) ∧
      firstSentence (firstSentence t) = firstSentence t := by
  intro joined
  have hspaced : IsSpaced joined := isSpaced_join isWord_of_mem_words
  have hcases := throughPeriod_cases hspaced
  have hprefix : firstSentence t <+: joined := by
    rw [firstSentence]
    rcases hcases with ⟨hall, -⟩ | ⟨i, -, htake⟩
    · exact ⟨[], by rw [hall, List.append_nil]⟩
    · rw [htake]
      exact List.take_prefix _ _
  refine ⟨fun c hc => ?_, hprefix, ?_, ?_⟩
  · have hmem : c ∈ joined := hprefix.subset hc
    refine Bool.eq_false_iff.2 fun hbreak => ?_
    rw [hspaced c hmem (isBlank_of_isBreak hbreak)] at hbreak
    exact absurd hbreak (by decide)
  · refine hcases.imp_right fun ⟨i, hi, htake⟩ => ⟨i, hi, htake, fun j => ?_⟩
    rw [firstSentence, htake]
    exact endsSentence_take_iff hi j
  · rw [firstSentence, join_words_firstSentence]
    exact throughPeriod_throughPeriod hspaced

/-- A period inside a word does not end a sentence. -/
example : firstSentence "Since v1.2\n it  works. More.".toList = "Since v1.2 it works.".toList := by
  decide

end DocPress.Text
