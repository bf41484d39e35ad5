import DocPress.Proofs.Text.Lines

/-!
# Words

A word is a run of characters that are not blank, as long as it can be
(`words_visible`).  Everything about words follows from this and from the one equation
`words_append_blank`: a blank anywhere in a text parts the words before it from those
behind it.  So cutting a text into lines keeps all words (`words_lines`).
-/

namespace DocPress.Text

/-- A text without blanks that is not empty. -/
structure IsWord (w : Text) : Prop where
  ne_nil : w ≠ []
  visible : ∀ c ∈ w, isBlank c = false

/-- Letters, digits and underscores, and at least one of them. -/
structure IsName (name : Text) : Prop where
  ne_nil : name ≠ []
  word : ∀ c ∈ name, isWordChar c = true

instance (w : Text) : Decidable (IsWord w) :=
  decidable_of_iff (w ≠ [] ∧ w.all (!isBlank ·) = true)
    ⟨fun h => ⟨h.1, by simpa using h.2⟩, fun h => ⟨h.ne_nil, by simpa using h.visible⟩⟩

instance (name : Text) : Decidable (IsName name) :=
  decidable_of_iff (name ≠ [] ∧ name.all isWordChar = true)
    ⟨fun h => ⟨h.1, List.all_eq_true.1 h.2⟩, fun h => ⟨h.ne_nil, List.all_eq_true.2 h.word⟩⟩

/-- Blanks that part two words: at least one. -/
structure IsGap (gap : Text) : Prop where
  ne_nil : gap ≠ []
  blanks : AreBlanks gap

instance (gap : Text) : Decidable (IsGap gap) :=
  decidable_of_iff (gap ≠ [] ∧ AreBlanks gap) ⟨fun h => ⟨h.1, h.2⟩, fun h => ⟨h.ne_nil, h.blanks⟩⟩

theorem isGap_blank : IsGap [' '] := by decide

/-- A text that does not begin with a blank. -/
def BeginsVisible (t : Text) : Prop := ∀ c ∈ t.head?, isBlank c = false

theorem isBlank_of_isWordChar {c : Char} (h : isWordChar c = true) : isBlank c = false := by
  have hbounds : 48 ≤ c.toNat ∧ c.toNat ≤ 122 := by
    delta isWordChar Char.isAlphanum Char.isAlpha Char.isUpper Char.isLower Char.isDigit at h
    simp only [Bool.or_eq_true, Bool.and_eq_true, decide_eq_true_eq, beq_iff_eq, ge_iff_le,
      UInt32.le_iff_toNat_le] at h
    change (((65 ≤ c.toNat ∧ c.toNat ≤ 90) ∨ (97 ≤ c.toNat ∧ c.toNat ≤ 122)) ∨
      (48 ≤ c.toNat ∧ c.toNat ≤ 57)) ∨ c = '_' at h
    rcases h with h | rfl
    · omega
    · decide
  simp only [isBlank, Bool.or_eq_false_iff, Bool.and_eq_false_iff, decide_eq_false_iff_not,
    beq_eq_false_iff_ne]
  omega

theorem not_isWordChar_of_isBlank {c : Char} (h : isBlank c = true) : isWordChar c = false := by
  refine Bool.eq_false_iff.2 fun hword => ?_
  rw [isBlank_of_isWordChar hword] at h
  cases h

theorem IsName.isWord {name : Text} (h : IsName name) : IsWord name :=
  ⟨h.ne_nil, fun c hc => isBlank_of_isWordChar (h.word c hc)⟩

theorem words_nil : words [] = [] := rfl

theorem words_blank {c : Char} (h : isBlank c = true) (rest : Text) :
    words (c :: rest) = words rest := by
  rw [words.eq_def]
  simp only [h, if_true]

/-- A character that is not blank begins a word, which goes on to the next blank. -/
theorem words_visible {c : Char} (h : isBlank c = false) (rest : Text) :
    words (c :: rest) =
      (c :: rest.takeWhile (!isBlank ·)) :: words (rest.dropWhile (!isBlank ·)) := by
  induction rest generalizing c with
  | nil => rw [words.eq_def]; simp [h, words_nil]
  | cons d rest ih =>
      rw [words.eq_def]
      cases hd : isBlank d with
      | true => simp [h, hd]
      | false => simp [h, hd, ih hd]

/-- A fact about words follows from what happens at the end of a text, at a blank and
at the beginning of a word. -/
theorem words_induction {motive : Text → Prop} (nil : motive [])
    (blank : ∀ c rest, isBlank c = true → motive rest → motive (c :: rest))
    (word : ∀ c rest, isBlank c = false → motive (rest.dropWhile (!isBlank ·)) →
      motive (c :: rest)) (t : Text) : motive t := by
  induction hn : t.length using Nat.strongRecOn generalizing t with
  | _ n ih =>
      cases t with
      | nil => exact nil
      | cons c rest =>
          rw [List.length_cons] at hn
          have hle : (rest.dropWhile (!isBlank ·)).length ≤ rest.length :=
            (List.dropWhile_suffix _).length_le
          cases hc : isBlank c with
          | true => exact blank c rest hc (ih rest.length (by omega) rest rfl)
          | false => exact word c rest hc (ih _ (by omega) _ rfl)

theorem isWord_of_mem_words {t : Text} : ∀ w ∈ words t, IsWord w := by
  induction t using words_induction with
  | nil => simp [words_nil]
  | blank c rest hc ih => rwa [words_blank hc]
  | word c rest hc ih =>
      rw [words_visible hc]
      refine List.forall_mem_cons.2 ⟨⟨by simp, fun d hd => ?_⟩, ih⟩
      rcases List.mem_cons.1 hd with rfl | hd
      · exact hc
      · simpa using List.mem_takeWhile_imp hd

theorem takeWhile_append_blank {c : Char} (h : isBlank c = true) (a b : Text) :
    (a ++ c :: b).takeWhile (!isBlank ·) = a.takeWhile (!isBlank ·) := by
  induction a with
  | nil => simp [h]
  | cons d a ih => cases hd : isBlank d <;> simp [hd, ih]

theorem dropWhile_append_blank {c : Char} (h : isBlank c = true) (a b : Text) :
    (a ++ c :: b).dropWhile (!isBlank ·) = a.dropWhile (!isBlank ·) ++ c :: b := by
  induction a with
  | nil => simp [h]
  | cons d a ih => cases hd : isBlank d <;> simp [hd, ih]

/-- A blank parts the words before it from those behind it. -/
theorem words_append_blank {c : Char} (h : isBlank c = true) (a b : Text) :
    words (a ++ c :: b) = words a ++ words b := by
  induction a using words_induction with
  | nil => rw [List.nil_append, words_blank h, words_nil, List.nil_append]
  | blank d rest hd ih => rw [List.cons_append, words_blank hd, words_blank hd, ih]
  | word d rest hd ih =>
      rw [List.cons_append, words_visible hd, words_visible hd, takeWhile_append_blank h,
        dropWhile_append_blank h, ih, List.cons_append]

theorem words_append_left {l : Text} (hl : AreBlanks l) (t : Text) : words (l ++ t) = words t := by
  induction l with
  | nil => rfl
  | cons c l ih =>
      rw [List.cons_append, words_blank (hl c List.mem_cons_self),
        ih fun d hd => hl d (List.mem_cons_of_mem _ hd)]

theorem words_append_right (t : Text) {r : Text} (hr : AreBlanks r) : words (t ++ r) = words t := by
  cases r with
  | nil => rw [List.append_nil]
  | cons c r =>
      have hblank : AreBlanks r := fun d hd => hr d (List.mem_cons_of_mem _ hd)
      have hnone : words r = [] := by
        have hleft := words_append_left hblank []
        rwa [List.append_nil, words_nil] at hleft
      rw [words_append_blank (hr c List.mem_cons_self), hnone, List.append_nil]

theorem words_trimRight (t : Text) : words (trimRight t) = words t := by
  have hblanks : AreBlanks (t.rtakeWhile isBlank) := fun c hc => List.mem_rtakeWhile_imp hc
  have hsplit : t = trimRight t ++ t.rtakeWhile isBlank :=
    List.rdropWhile_append_rtakeWhile.symm
  conv_rhs => rw [hsplit]
  rw [words_append_right _ hblanks]

/-- Joined by line feeds, lines keep their words. -/
theorem words_join (ls : List Text) : words (join ['\n'] ls) = ls.flatMap words := by
  induction ls with
  | nil => rfl
  | cons line more ih =>
      cases more with
      | nil => rw [join, List.intercalate_singleton, List.flatMap_singleton]
      | cons next more =>
          rw [join_cons (by simp), List.singleton_append, words_append_blank (by decide), ih]
          rfl

theorem IsWord.words_eq {w : Text} (h : IsWord w) : words w = [w] := by
  cases w with
  | nil => exact absurd rfl h.ne_nil
  | cons c w =>
      have htail : ∀ d ∈ w, (!isBlank d) = true := fun d hd => by
        simp [h.visible d (List.mem_cons_of_mem _ hd)]
      rw [words_visible (h.visible c List.mem_cons_self), List.takeWhile_eq_self_iff.2 htail,
        List.dropWhile_eq_nil_iff.2 htail, words_nil]

/-! ### Gaps between words -/

/-- A run of characters of one kind goes on to the first character of another kind. -/
theorem takeWhile_run {p : Char → Bool} {w t : Text} (hw : ∀ c ∈ w, p c = true)
    (ht : ∀ c ∈ t.head?, p c = false) :
    (w ++ t).takeWhile p = w ∧ (w ++ t).dropWhile p = t := by
  rw [List.takeWhile_append_of_pos hw, List.dropWhile_append_of_pos hw]
  cases t with
  | nil => simp
  | cons c t => simp [ht c rfl]

/-- What is left behind a run does not go on with it. -/
theorem head?_dropWhile_eq_false (p : Char → Bool) (t : Text) :
    ∀ c ∈ (t.dropWhile p).head?, p c = false := by
  intro c hc
  have hnot := List.head?_dropWhile_not p t
  rwa [hc] at hnot

theorem exists_trimLeft (t : Text) : ∃ l, AreBlanks l ∧ t = l ++ trimLeft t :=
  ⟨t.takeWhile isBlank, fun _ hc => List.mem_takeWhile_imp hc, List.takeWhile_append_dropWhile.symm⟩

theorem beginsVisible_trimLeft (t : Text) : BeginsVisible (trimLeft t) :=
  head?_dropWhile_eq_false isBlank t

theorem BeginsVisible.trimLeft_eq {t : Text} (h : BeginsVisible t) : trimLeft t = t :=
  (takeWhile_run (w := []) (by simp) h).2

theorem trimLeft_gap {l t : Text} (hl : AreBlanks l) (ht : BeginsVisible t) :
    trimLeft (l ++ t) = t :=
  (takeWhile_run hl ht).2

theorem IsWord.beginsVisible {w : Text} (h : IsWord w) (rest : Text) :
    BeginsVisible (w ++ rest) := by
  intro c hc
  rw [List.head?_append_of_ne_nil _ h.ne_nil] at hc
  exact h.visible c (List.mem_of_mem_head? hc)

/-- A gap parts the words before it from those behind it. -/
theorem IsGap.words_append {gap : Text} (h : IsGap gap) (a b : Text) :
    words (a ++ (gap ++ b)) = words a ++ words b := by
  cases gap with
  | nil => exact absurd rfl h.ne_nil
  | cons c gap =>
      obtain ⟨hc, hgap⟩ := List.forall_mem_cons.1 h.blanks
      rw [List.cons_append, words_append_blank hc, words_append_left hgap]

/-- Words that are joined by spaces come apart again. -/
theorem words_join_blank {ws : List Text} (hws : ∀ w ∈ ws, IsWord w) :
    words (join [' '] ws) = ws := by
  induction ws with
  | nil => rfl
  | cons w more ih =>
      obtain ⟨hw, hmore⟩ := List.forall_mem_cons.1 hws
      cases more with
      | nil => rw [join, List.intercalate_singleton, hw.words_eq]
      | cons next more =>
          rw [join_cons (by simp), isGap_blank.words_append, hw.words_eq, ih hmore]
          rfl

/-! ### Words of lines -/

theorem lines_eq_nil_iff {t : Text} : lines t = [] ↔ t = [] := by
  constructor
  · intro h
    induction t using lines_induction with
    | nil => rfl
    | pair rest _ => rw [lines_return_feed] at h; cases h
    | single c rest hbreak hfeed _ => rw [lines_break hbreak hfeed] at h; cases h
    | char c rest hbreak _ => rw [lines_char rest hbreak] at h; cases h
  · rintro rfl
    exact lines_nil

/-- The first line of a text is all of it, or blanks part it from the other lines. -/
theorem exists_append_of_lines_eq_cons {t first : Text} {more : List Text}
    (h : lines t = first :: more) :
    (t = first ∧ more = []) ∨ ∃ c sep rest, t = first ++ c :: (sep ++ rest) ∧
      isBlank c = true ∧ AreBlanks sep ∧ lines rest = more := by
  induction t using lines_induction generalizing first with
  | nil => rw [lines_nil] at h; cases h
  | pair rest _ =>
      rw [lines_return_feed] at h
      obtain ⟨rfl, rfl⟩ := List.cons.inj h
      exact .inr ⟨'\r', ['\n'], rest, rfl, by decide, by decide, rfl⟩
  | single c rest hbreak hfeed _ =>
      rw [lines_break hbreak hfeed] at h
      obtain ⟨rfl, rfl⟩ := List.cons.inj h
      exact .inr ⟨c, [], rest, rfl, isBlank_of_isBreak hbreak, areBlanks_nil, rfl⟩
  | char c rest hbreak ih =>
      rw [lines_char rest hbreak] at h
      cases hrest : lines rest with
      | nil =>
          rw [hrest] at h
          obtain ⟨rfl, rfl⟩ := List.cons.inj h
          exact .inl ⟨by rw [lines_eq_nil_iff.1 hrest]; rfl, rfl⟩
      | cons line others =>
          rw [hrest] at h
          obtain ⟨rfl, rfl⟩ := List.cons.inj h
          rcases ih hrest with ⟨heq, hmore⟩ | ⟨d, sep, tail, heq, hd, hsep, htail⟩
          · exact .inl ⟨by rw [heq]; rfl, hmore⟩
          · exact .inr ⟨d, sep, tail, by rw [heq]; rfl, hd, hsep, htail⟩

/-- Cutting a text into lines keeps all words. -/
theorem words_lines (t : Text) : (lines t).flatMap words = words t := by
  -- on the lines that are left: each is parted by blanks from what follows
  induction hls : lines t generalizing t with
  | nil => rw [lines_eq_nil_iff.1 hls, words_nil]; rfl
  | cons first more ih =>
      rw [List.flatMap_cons]
      rcases exists_append_of_lines_eq_cons hls with
        ⟨rfl, rfl⟩ | ⟨c, sep, rest, rfl, hc, hsep, hrest⟩
      · exact List.append_nil _
      · rw [ih rest hrest, words_append_blank hc, words_append_left hsep]

end DocPress.Text
