import DocPress.Proofs.Text.Lines

/-!
# Line ends

A carriage return ends a line, alone or with a line feed behind it.  Unifying the line ends
of a text keeps its lines (`lines_unifyLineEnds`).  It can be done piece by piece, unless a
line feed stands right behind the cut (`unifyLineEnds_append_cons`), and a cut of the unified
text comes from a cut of the text (`exists_of_unifyLineEnds_eq_append`).  What is visible
stays in its place, so trimming and cutting off what is visible at either end may be done
before or after.  Line feeds that were replaced by another line end come back
(`unifyLineEnds_replaceChar`).
-/

namespace DocPress.Text

/-- The line ends that a text without carriage returns may have in place of its line feeds. -/
def feeds : List Text := [['\n'], ['\r', '\n'], ['\r']]

/-! ### One character -/

theorem unifyLineEnds_step {c : Char} {rest : Text} (h : c = '\r' → rest.head? ≠ some '\n') :
    unifyLineEnds (c :: rest) = (if c = '\r' then '\n' else c) :: unifyLineEnds rest := by
  rw [unifyLineEnds]
  rintro tail rfl rfl
  exact h rfl rfl

/-- A carriage return is a line end of its own, but not before a line feed. -/
theorem unifyLineEnds_return {rest : Text} (h : rest.head? ≠ some '\n') :
    unifyLineEnds ('\r' :: rest) = '\n' :: unifyLineEnds rest :=
  unifyLineEnds_step fun _ => h

theorem unifyLineEnds_cons {c : Char} (rest : Text) (h : c ≠ '\r') :
    unifyLineEnds (c :: rest) = c :: unifyLineEnds rest := by
  rw [unifyLineEnds_step fun hc => absurd hc h, if_neg h]

theorem head?_unifyLineEnds (t : Text) :
    (unifyLineEnds t).head? = t.head?.map fun c => if c = '\r' then '\n' else c := by
  fun_cases unifyLineEnds t with
  | case1 => rfl
  | case2 => rfl
  | case3 => rfl

theorem getLast?_unifyLineEnds (t : Text) :
    (unifyLineEnds t).getLast? = t.getLast?.map fun c => if c = '\r' then '\n' else c := by
  fun_induction unifyLineEnds t with
  | case1 => rfl
  | case2 rest ih =>
      rw [List.getLast?_cons, ih]
      cases h : rest.getLast? <;> simp [List.getLast?_cons, h]
  | case3 c rest _ ih =>
      rw [List.getLast?_cons, ih]
      cases h : rest.getLast? <;> simp [List.getLast?_cons, h]

theorem unifyLineEnds_ne_nil {t : Text} (h : t ≠ []) : unifyLineEnds t ≠ [] := by
  fun_cases unifyLineEnds t with
  | case1 => exact absurd rfl h
  | _ => exact List.cons_ne_nil _ _

/-! ### Characters of unified texts -/

theorem return_notMem_unifyLineEnds (t : Text) : '\r' ∉ unifyLineEnds t := by
  fun_induction unifyLineEnds t with
  | case1 => simp
  | case2 rest ih => simpa using ih
  | case3 c rest _ ih =>
      intro hmem
      rcases List.mem_cons.1 hmem with heq | hmem
      · split at heq
        · exact absurd heq (by decide)
        · next hc => exact hc heq.symm
      · exact ih hmem

/-- Unifying brings in no character but the line feed. -/
theorem mem_of_mem_unifyLineEnds {t : Text} {c : Char} (h : c ∈ unifyLineEnds t) :
    c ∈ t ∨ c = '\n' := by
  fun_induction unifyLineEnds t with
  | case1 => cases h
  | case2 rest ih => grind
  | case3 d rest _ ih => grind

/-- No character is lost but the carriage return. -/
theorem mem_unifyLineEnds {c : Char} {t : Text} (h : c ∈ t) : c = '\r' ∨ c ∈ unifyLineEnds t := by
  fun_induction unifyLineEnds t with
  | case1 => cases h
  | case2 rest ih => grind
  | case3 d rest _ ih => grind

theorem unifyLineEnds_append_of_notMem {a : Text} (b : Text) (h : '\r' ∉ a) :
    unifyLineEnds (a ++ b) = a ++ unifyLineEnds b := by
  induction a with
  | nil => rfl
  | cons c a ih =>
      have hc : c ≠ '\r' := fun hc => h (hc ▸ List.mem_cons_self)
      have ha : '\r' ∉ a := fun ha => h (List.mem_cons_of_mem c ha)
      rw [List.cons_append, unifyLineEnds_cons _ hc, ih ha, List.cons_append]

theorem unifyLineEnds_eq_self {t : Text} (h : '\r' ∉ t) : unifyLineEnds t = t := by
  simpa [unifyLineEnds] using unifyLineEnds_append_of_notMem [] h

/-- Where no line ends, the text stays as it is. -/
theorem unifyLineEnds_eq_self_of_notMem {t : Text} (h : '\n' ∉ unifyLineEnds t) :
    unifyLineEnds t = t := by
  fun_induction unifyLineEnds t with
  | case1 => rfl
  | case2 rest ih => exact (h List.mem_cons_self).elim
  | case3 c rest _ ih =>
      have hc : c ≠ '\r' := by
        rintro rfl
        exact h List.mem_cons_self
      rw [if_neg hc, ih fun hmem => h (List.mem_cons_of_mem _ hmem)]

/-! ### Cuts -/

/-- Line ends can be unified on both sides of a cut, unless the cut stands right before a
line feed. -/
theorem unifyLineEnds_append_cons (a : Text) {c : Char} (b : Text) (h : c ≠ '\n') :
    unifyLineEnds (a ++ c :: b) = unifyLineEnds a ++ unifyLineEnds (c :: b) := by
  fun_induction unifyLineEnds a with
  | case1 => rfl
  | case2 rest ih => simp only [List.cons_append, unifyLineEnds, ih]
  | case3 d rest hrest ih =>
      have hnext : d = '\r' → (rest ++ c :: b).head? ≠ some '\n' := by
        intro hd heq
        cases rest with
        | nil => exact h (Option.some.inj heq)
        | cons e rest =>
            obtain rfl : e = '\n' := Option.some.inj heq
            exact hrest rest hd rfl
      rw [List.cons_append, unifyLineEnds_step hnext, ih, List.cons_append]

/-- A cut of the unified text comes from a cut of the text. -/
theorem exists_of_unifyLineEnds_eq_append {t a b : Text} (h : unifyLineEnds t = a ++ b) :
    ∃ x y, t = x ++ y ∧ unifyLineEnds x = a ∧ unifyLineEnds y = b := by
  fun_induction unifyLineEnds t generalizing a with
  | case1 =>
      obtain ⟨rfl, rfl⟩ := List.append_eq_nil_iff.1 h.symm
      exact ⟨[], [], rfl, rfl, rfl⟩
  | case2 t ih =>
      cases a with
      | nil => exact ⟨[], _, rfl, rfl, h⟩
      | cons d a =>
          obtain ⟨rfl, htail⟩ := List.cons.inj h
          obtain ⟨x, y, rfl, rfl, rfl⟩ := ih htail
          exact ⟨'\r' :: '\n' :: x, y, rfl, rfl, rfl⟩
  | case3 c t hne ih =>
      cases a with
      | nil => exact ⟨[], _, rfl, rfl, by rw [unifyLineEnds.eq_3 _ _ hne]; exact h⟩
      | cons d a =>
          obtain ⟨rfl, htail⟩ := List.cons.inj h
          obtain ⟨x, y, rfl, rfl, rfl⟩ := ih htail
          refine ⟨c :: x, y, rfl, unifyLineEnds_step fun hc hx => ?_, rfl⟩
          cases x with
          | nil => cases hx
          | cons e x => cases hx; exact hne _ hc rfl

/-- A part without line feeds stands in the text as it is. -/
theorem exists_of_unifyLineEnds_eq_word {t w b : Text} (hw : '\n' ∉ w)
    (h : unifyLineEnds t = w ++ b) : ∃ y, t = w ++ y ∧ unifyLineEnds y = b := by
  obtain ⟨x, y, rfl, rfl, hy⟩ := exists_of_unifyLineEnds_eq_append h
  exact ⟨y, by rw [unifyLineEnds_eq_self_of_notMem hw], hy⟩

/-! ### Visible characters -/

theorem feed_notMem_of_visible {t : Text} (h : ∀ c ∈ t, isBlank c = false) :
    '\n' ∉ t ∧ '\r' ∉ t :=
  ⟨fun hmem => absurd (h _ hmem) (by decide), fun hmem => absurd (h _ hmem) (by decide)⟩

/-- Line ends are unified on both sides of a visible character. -/
theorem unifyLineEnds_append_visible {c : Char} (h : isBlank c = false) (a b : Text) :
    unifyLineEnds (a ++ c :: b) = unifyLineEnds a ++ c :: unifyLineEnds b := by
  obtain ⟨hfeed, hreturn⟩ := feed_notMem_of_visible (List.forall_mem_singleton.2 h)
  rw [unifyLineEnds_append_cons _ _ fun heq => hfeed (List.mem_singleton.2 heq.symm),
    unifyLineEnds_cons _ fun heq => hreturn (List.mem_singleton.2 heq.symm)]

theorem after?_unifyLineEnds {e : Text} (he : ∀ c ∈ e, isBlank c = false) (t : Text) :
    after? e (unifyLineEnds t) = (after? e t).map unifyLineEnds := by
  obtain ⟨hfeed, hreturn⟩ := feed_notMem_of_visible he
  by_cases hprefix : e <+: t
  · obtain ⟨v, rfl⟩ := hprefix
    rw [unifyLineEnds_append_of_notMem _ hreturn, after?_append, after?_append, Option.map_some]
  · have hnot : ¬ e <+: unifyLineEnds t := by
      rintro ⟨w, hw⟩
      obtain ⟨v, rfl, -⟩ := exists_of_unifyLineEnds_eq_word hfeed hw.symm
      exact hprefix ⟨v, rfl⟩
    rw [after?_eq_none hprefix, after?_eq_none hnot, Option.map_none]

theorem before?_unifyLineEnds {e : Text} (he : ∀ c ∈ e, isBlank c = false) (t : Text) :
    before? e (unifyLineEnds t) = (before? e t).map unifyLineEnds := by
  obtain ⟨hfeed, hreturn⟩ := feed_notMem_of_visible he
  -- the ending is cut off the same text, whatever stands before it
  have hunified : ∀ v, unifyLineEnds (v ++ e) = unifyLineEnds v ++ e := by
    intro v
    cases e with
    | nil => rw [List.append_nil, List.append_nil]
    | cons c e =>
        rw [unifyLineEnds_append_visible (he c List.mem_cons_self),
          unifyLineEnds_eq_self fun hmem => hreturn (List.mem_cons_of_mem _ hmem)]
  by_cases hsuffix : e <:+ t
  · obtain ⟨v, rfl⟩ := hsuffix
    rw [hunified, before?_append, before?_append, Option.map_some]
  · have hnot : ¬ e <:+ unifyLineEnds t := by
      rintro ⟨w, hw⟩
      obtain ⟨v, y, rfl, -, hy⟩ := exists_of_unifyLineEnds_eq_append hw.symm
      have hye : y = e := by rw [← hy, unifyLineEnds_eq_self_of_notMem (by rwa [hy])]
      exact hsuffix ⟨v, by rw [hye]⟩
    rw [before?_eq_none hsuffix, before?_eq_none hnot, Option.map_none]

/-! ### Blanks -/

theorem areBlanks_unifyLineEnds {t : Text} (h : AreBlanks t) : AreBlanks (unifyLineEnds t) := by
  intro c hc
  rcases mem_of_mem_unifyLineEnds hc with hc | rfl
  · exact h c hc
  · decide

theorem isTrimmed_unifyLineEnds {t : Text} (h : IsTrimmed t) : IsTrimmed (unifyLineEnds t) := by
  have hunified (c : Char) : isBlank (if c = '\r' then '\n' else c) = isBlank c := by
    split
    · next hreturn =>
        rw [hreturn]
        decide
    · rfl
  constructor
  · intro c hc
    rw [head?_unifyLineEnds] at hc
    obtain ⟨d, hd, rfl⟩ := Option.map_eq_some_iff.1 hc
    exact (hunified d).trans (h.head d hd)
  · intro c hc
    rw [getLast?_unifyLineEnds] at hc
    obtain ⟨d, hd, rfl⟩ := Option.map_eq_some_iff.1 hc
    exact (hunified d).trans (h.last d hd)

/-- Text between visible characters keeps its place among unified line ends. -/
theorem unifyLineEnds_append_trimmed {u : Text} (hu : IsTrimmed u) (hne : u ≠ []) (l r : Text) :
    unifyLineEnds (l ++ (u ++ r)) = unifyLineEnds l ++ (unifyLineEnds u ++ unifyLineEnds r) := by
  have hleft : unifyLineEnds (l ++ (u ++ r)) = unifyLineEnds l ++ unifyLineEnds (u ++ r) := by
    cases u with
    | nil => exact absurd rfl hne
    | cons c m =>
        have hc := hu.head c rfl
        rw [List.cons_append, unifyLineEnds_append_visible hc]
        exact congrArg (unifyLineEnds l ++ ·) (unifyLineEnds_append_visible hc [] (m ++ r)).symm
  have hright : unifyLineEnds (u ++ r) = unifyLineEnds u ++ unifyLineEnds r := by
    obtain ⟨m, d, rfl⟩ := (List.eq_nil_or_concat' u).resolve_left hne
    have hd := hu.last d (by simp)
    rw [List.append_assoc, List.singleton_append, unifyLineEnds_append_visible hd,
      unifyLineEnds_append_visible hd, List.append_assoc]
    rfl
  rw [hleft, hright]

theorem trim_unifyLineEnds (t : Text) : trim (unifyLineEnds t) = unifyLineEnds (trim t) := by
  by_cases hblank : AreBlanks t
  · rw [trim_eq_nil_iff.2 hblank, trim_eq_nil_iff.2 (areBlanks_unifyLineEnds hblank)]
    rfl
  · obtain ⟨l, r, heq, hl, hr⟩ := exists_trim t
    have htrimmed := isTrimmed_trim t
    have hne : trim t ≠ [] := fun h => hblank (trim_eq_nil_iff.1 h)
    conv_lhs => rw [heq, unifyLineEnds_append_trimmed htrimmed hne]
    rw [trim_append_blanks (areBlanks_unifyLineEnds hl) (areBlanks_unifyLineEnds hr),
      (isTrimmed_unifyLineEnds htrimmed).trim_eq]

/-! ### Lines -/

/-- Unifying keeps the lines: a carriage return ends a line too, alone or before a line
feed. -/
theorem lines_unifyLineEnds (t : Text) : lines (unifyLineEnds t) = lines t := by
  have hfeed (rest : Text) : lines ('\n' :: rest) = [] :: lines rest :=
    lines_break (by decide) fun h => absurd h (by decide)
  induction t using lines_induction with
  | nil => rfl
  | pair rest ih => rw [lines_return_feed, unifyLineEnds, hfeed, ih]
  | single c rest hbreak hpair ih =>
      by_cases hreturn : c = '\r'
      · subst hreturn
        rw [unifyLineEnds_return (hpair rfl), hfeed, lines_break hbreak hpair, ih]
      · rw [unifyLineEnds_cons _ hreturn, lines_break hbreak (fun h => absurd h hreturn),
          lines_break hbreak hpair, ih]
  | char c rest hchar ih =>
      have hreturn : c ≠ '\r' := by
        rintro rfl
        exact absurd hchar (by decide)
      rw [unifyLineEnds_cons _ hreturn, lines_char _ hchar, lines_char _ hchar, ih]

/-! ### Other line ends in place of line feeds -/

theorem replaceChar_cons (old : Char) (new : Text) (c : Char) (t : Text) :
    replaceChar old new (c :: t) = (if c = old then new else [c]) ++ replaceChar old new t := by
  rw [replaceChar, List.flatMap_cons, replaceChar]

theorem feed_notMem_replaceChar (t : Text) : '\n' ∉ replaceChar '\n' ['\r'] t := by
  intro hmem
  obtain ⟨c, -, hc⟩ := List.mem_flatMap.1 hmem
  split at hc
  · simp at hc
  · next hne => exact hne (List.mem_singleton.1 hc).symm

theorem unifyLineEnds_feed_append {feed : Text} (hfeed : feed ∈ feeds) (t : Text) :
    unifyLineEnds (feed ++ replaceChar '\n' feed t) =
      '\n' :: unifyLineEnds (replaceChar '\n' feed t) := by
  simp only [feeds, List.mem_cons, List.not_mem_nil, or_false] at hfeed
  rcases hfeed with rfl | rfl | rfl
  · exact unifyLineEnds_cons _ (by decide)
  · rfl
  · exact unifyLineEnds_return fun hhead =>
      feed_notMem_replaceChar t (List.mem_of_mem_head? hhead)

/-- Unifying puts the line feeds back that were replaced. -/
theorem unifyLineEnds_replaceChar {feed : Text} (hfeed : feed ∈ feeds) {t : Text}
    (ht : '\r' ∉ t) : unifyLineEnds (replaceChar '\n' feed t) = t := by
  induction t with
  | nil => rfl
  | cons c t ih =>
      have hc : c ≠ '\r' := fun heq => ht (heq ▸ List.mem_cons_self)
      have hrest := ih fun hmem => ht (List.mem_cons_of_mem _ hmem)
      rw [replaceChar_cons]
      split
      · next heq => rw [unifyLineEnds_feed_append hfeed, hrest, heq]
      · rw [List.singleton_append, unifyLineEnds_cons _ hc, hrest]

/-- The lines of a text do not depend on its line ends. -/
theorem lines_replaceChar {feed : Text} (hfeed : feed ∈ feeds) {t : Text} (ht : '\r' ∉ t) :
    lines (replaceChar '\n' feed t) = lines t := by
  rw [← lines_unifyLineEnds, unifyLineEnds_replaceChar hfeed ht]

theorem isAllBlank_replaceChar {feed : Text} (hfeed : feed ∈ feeds) (t : Text) :
    isAllBlank (replaceChar '\n' feed t) = isAllBlank t := by
  have hblank : feed.all isBlank = true := by
    have hall : ∀ f ∈ feeds, f.all isBlank = true := by decide
    exact hall feed hfeed
  induction t with
  | nil => rfl
  | cons c t ih =>
      rw [isAllBlank] at ih
      rw [replaceChar_cons, isAllBlank, isAllBlank, List.all_append, ih, List.all_cons, isAllBlank]
      split
      · next heq =>
          rw [hblank, heq]
          rfl
      · simp

end DocPress.Text
