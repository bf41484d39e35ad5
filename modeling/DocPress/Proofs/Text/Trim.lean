import DocPress.Text.Basic
import Mathlib.Data.List.DropRight

/-!
# Trimmed text

Trimming cuts a text into blanks, a trimmed text and blanks (`exists_trim`), and
it is the only such cut: blanks on either side of a text do not matter
(`trim_append_blanks`), and a trimmed text is its own trim
(`IsTrimmed.trim_eq`).
-/

namespace DocPress.Text

/-- Nothing but blanks. -/
def AreBlanks (t : Text) : Prop := ∀ c ∈ t, isBlank c = true

instance (t : Text) : Decidable (AreBlanks t) := List.decidableBAll _ t

/-- A text that neither begins nor ends with a blank. -/
structure IsTrimmed (t : Text) : Prop where
  head : ∀ c ∈ t.head?, isBlank c = false
  last : ∀ c ∈ t.getLast?, isBlank c = false

instance (t : Text) : Decidable (IsTrimmed t) :=
  decidable_of_iff (t.head?.all (!isBlank ·) = true ∧ t.getLast?.all (!isBlank ·) = true) <| by
    simp only [Option.all_eq_true, Bool.not_eq_true']
    exact ⟨fun h => ⟨h.1, h.2⟩, fun h => ⟨h.head, h.last⟩⟩

/-- The characters of a text that are not blank, in order. -/
def visible (t : Text) : Text := t.filter (!isBlank ·)

/-! ### Blanks -/

theorem areBlanks_nil : AreBlanks [] := by
  simp [AreBlanks]

theorem areBlanks_append {a b : Text} : AreBlanks (a ++ b) ↔ AreBlanks a ∧ AreBlanks b := by
  simp [AreBlanks, or_imp, forall_and]

@[simp] theorem visible_append (a b : Text) : visible (a ++ b) = visible a ++ visible b :=
  List.filter_append ..

theorem AreBlanks.visible_eq {t : Text} (h : AreBlanks t) : visible t = [] := by
  simpa [visible, AreBlanks] using h

/-! ### Trimming -/

theorem trimRight_eq_rdropWhile (t : Text) : trimRight t = t.rdropWhile isBlank := rfl

theorem exists_trim (t : Text) :
    ∃ l r, t = l ++ (trim t ++ r) ∧ AreBlanks l ∧ AreBlanks r := by
  refine ⟨t.takeWhile isBlank, (trimLeft t).rtakeWhile isBlank, ?_, ?_, ?_⟩
  · rw [trim, trimRight_eq_rdropWhile, List.rdropWhile_append_rtakeWhile, trimLeft,
      List.takeWhile_append_dropWhile]
  · exact fun c hc => List.mem_takeWhile_imp hc
  · exact fun c hc => List.mem_rtakeWhile_imp hc

theorem isTrimmed_trim (t : Text) : IsTrimmed (trim t) := by
  constructor
  · intro c hc
    -- the right end is cut from a text whose head is not blank, so the head stays
    have hprefix : trim t <+: trimLeft t := List.rdropWhile_prefix _ _
    have hhead : (trimLeft t).head? = some c := by
      obtain ⟨r, hr⟩ := hprefix
      rw [← hr, List.head?_append, hc]
      rfl
    have hnot := List.head?_dropWhile_not isBlank t
    rw [trimLeft] at hhead
    simpa [hhead] using hnot
  · intro c hc
    have hne : trim t ≠ [] := by
      rintro heq
      simp [heq] at hc
    have hlast := List.rdropWhile_last_not isBlank (trimLeft t) hne
    rw [List.getLast?_eq_some_getLast hne] at hc
    obtain rfl := Option.some.inj hc
    exact eq_false_of_ne_true hlast

theorem trimLeft_append_blanks {l : Text} (h : AreBlanks l) (t : Text) :
    trimLeft (l ++ t) = trimLeft t :=
  List.dropWhile_append_of_pos h

theorem trimRight_append_blanks (t : Text) {r : Text} (h : AreBlanks r) :
    trimRight (t ++ r) = trimRight t := by
  have hreverse : AreBlanks r.reverse := fun c hc => h c (List.mem_reverse.1 hc)
  rw [trimRight, List.reverse_append, List.dropWhile_append_of_pos hreverse, trimRight]

theorem IsTrimmed.trimLeft_eq {t : Text} (h : IsTrimmed t) : trimLeft t = t := by
  cases t with
  | nil => rfl
  | cons c t => simp [trimLeft, h.head c rfl]

theorem IsTrimmed.trimRight_eq {t : Text} (h : IsTrimmed t) : trimRight t = t := by
  rw [trimRight_eq_rdropWhile, List.rdropWhile_eq_self_iff]
  intro hne
  simpa using h.last _ (List.getLast?_eq_some_getLast hne)

theorem IsTrimmed.trim_eq {t : Text} (h : IsTrimmed t) : trim t = t := by
  rw [trim, h.trimLeft_eq, h.trimRight_eq]

theorem trim_trim (t : Text) : trim (trim t) = trim t := (isTrimmed_trim t).trim_eq

/-- A text of blanks only trims to nothing. -/
theorem trim_eq_nil_iff {t : Text} : trim t = [] ↔ AreBlanks t := by
  constructor
  · intro h
    obtain ⟨l, r, heq, hl, hr⟩ := exists_trim t
    rw [heq, h, List.nil_append, areBlanks_append]
    exact ⟨hl, hr⟩
  · intro h
    have hleft : trimLeft t = [] := by
      simpa [trimLeft] using trimLeft_append_blanks h []
    rw [trim, hleft]
    rfl

/-- Blanks on either side of a text do not change its trim. -/
theorem trim_append_blanks {l r : Text} (hl : AreBlanks l) (hr : AreBlanks r) (t : Text) :
    trim (l ++ (t ++ r)) = trim t := by
  rw [trim, trimLeft_append_blanks hl]
  by_cases hblank : AreBlanks t
  · have hall := trim_eq_nil_iff.2 (areBlanks_append.2 ⟨hblank, hr⟩)
    rw [trim] at hall
    rw [hall, trim_eq_nil_iff.2 hblank]
  · have hne : trimLeft t ≠ [] := fun heq =>
      hblank (trim_eq_nil_iff.1 (by rw [trim, heq]; rfl))
    have hcut : trimLeft (t ++ r) = trimLeft t ++ r := by
      rw [trimLeft, List.dropWhile_append, trimLeft]
      rw [trimLeft] at hne
      simp [hne]
    rw [hcut, trimRight_append_blanks _ hr, trim]

theorem trim_append_right {r : Text} (hr : AreBlanks r) (t : Text) : trim (t ++ r) = trim t :=
  trim_append_blanks areBlanks_nil hr t

theorem trim_append_left {l : Text} (hl : AreBlanks l) (t : Text) : trim (l ++ t) = trim t := by
  simpa using trim_append_blanks hl areBlanks_nil t

theorem trim_trimLeft (t : Text) : trim (trimLeft t) = trim t := by
  have hblanks : AreBlanks (t.takeWhile isBlank) := fun c hc => List.mem_takeWhile_imp hc
  have hsplit : t = t.takeWhile isBlank ++ trimLeft t := List.takeWhile_append_dropWhile.symm
  conv_rhs => rw [hsplit]
  rw [trim_append_left hblanks]

theorem trim_trimRight (t : Text) : trim (trimRight t) = trim t := by
  have hblanks : AreBlanks (t.rtakeWhile isBlank) := fun c hc => List.mem_rtakeWhile_imp hc
  have hsplit : t = trimRight t ++ t.rtakeWhile isBlank :=
    List.rdropWhile_append_rtakeWhile.symm
  conv_rhs => rw [hsplit]
  rw [trim_append_right hblanks]

theorem trimRight_append {x : Text} (hx : IsTrimmed x) (t : Text) :
    trimRight (x ++ t) = x ++ trimRight t := by
  rw [trimRight, List.reverse_append, List.dropWhile_append]
  split
  · next hempty =>
      have ht : trimRight t = [] := by rw [trimRight, List.isEmpty_iff.1 hempty, List.reverse_nil]
      rw [← trimRight, hx.trimRight_eq, ht, List.append_nil]
  · rw [List.reverse_append, List.reverse_reverse, ← trimRight]

theorem trimLeft_append (t : Text) {x : Text} (hx : IsTrimmed x) :
    trimLeft (t ++ x) = trimLeft t ++ x := by
  rw [trimLeft, List.dropWhile_append]
  split
  · next hempty =>
      have ht : trimLeft t = [] := List.isEmpty_iff.1 hempty
      rw [← trimLeft, hx.trimLeft_eq, ht, List.nil_append]
  · rfl

/-- A trimmed text before another keeps the other's beginning from being trimmed. -/
theorem trim_trimmed_append {x : Text} (hx : IsTrimmed x) (hne : x ≠ []) (t : Text) :
    trim (x ++ t) = x ++ trimRight t := by
  have hleft : trimLeft (x ++ t) = x ++ t := by
    cases x with
    | nil => exact absurd rfl hne
    | cons c x => simp [trimLeft, hx.head c rfl]
  rw [trim, hleft, trimRight_append hx]

/-- A trimmed text after another keeps the other's end from being trimmed. -/
theorem trimRight_append_trimmed (t : Text) {x : Text} (hx : IsTrimmed x) (hne : x ≠ []) :
    trimRight (t ++ x) = t ++ x := by
  rw [trimRight_eq_rdropWhile, List.rdropWhile_eq_self_iff]
  intro hall
  rw [List.getLast_append_of_ne_nil hall hne]
  simpa using hx.last _ (List.getLast?_eq_some_getLast hne)

theorem trim_append_trimmed (t : Text) {x : Text} (hx : IsTrimmed x) (hne : x ≠ []) :
    trim (t ++ x) = trimLeft t ++ x := by
  rw [trim, trimLeft_append t hx, trimRight_append_trimmed _ hx hne]

/-- Trimming loses no visible character. -/
@[simp] theorem visible_trim (t : Text) : visible (trim t) = visible t := by
  obtain ⟨l, r, heq, hl, hr⟩ := exists_trim t
  conv_rhs => rw [heq]
  rw [visible_append, visible_append, hl.visible_eq, hr.visible_eq, List.nil_append,
    List.append_nil]

/-! ### Beginnings and endings -/

theorem after?_append (start t : Text) : after? start (start ++ t) = some t := by
  have hstart : start.isPrefixOf (start ++ t) = true := List.isPrefixOf_iff_prefix.2 ⟨t, rfl⟩
  rw [after?, if_pos hstart, List.drop_left]

theorem after?_eq_none {start t : Text} (h : ¬ start <+: t) : after? start t = none := by
  rw [after?, if_neg fun hstart => h (List.isPrefixOf_iff_prefix.1 hstart)]

theorem eq_append_of_after? {start t rest : Text} (h : after? start t = some rest) :
    t = start ++ rest := by
  by_cases hstart : start <+: t
  · obtain ⟨u, rfl⟩ := hstart
    rw [after?_append] at h
    rw [Option.some.inj h]
  · rw [after?_eq_none hstart] at h
    cases h

theorem before?_append (t ending : Text) : before? ending (t ++ ending) = some t := by
  have hending : ending.isSuffixOf (t ++ ending) = true := List.isSuffixOf_iff_suffix.2 ⟨t, rfl⟩
  rw [before?, if_pos hending, List.length_append, Nat.add_sub_cancel, List.take_left]

theorem before?_eq_none {ending t : Text} (h : ¬ ending <:+ t) : before? ending t = none := by
  rw [before?, if_neg fun hending => h (List.isSuffixOf_iff_suffix.1 hending)]

end DocPress.Text
