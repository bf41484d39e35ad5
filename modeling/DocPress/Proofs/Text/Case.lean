import DocPress.Text.Case

/-!
# Letter case

A text in lower case is its own lower case.  The rule of the final sigma looks at what
stands around a letter, but it leaves no capital sigma behind, so it has nothing to do a
second time.  For all other characters the table is compared with itself, run by run: what
one run leads to, or the rule of a single character, lies on no run (`leadsPast_targetRuns`).
-/

namespace DocPress.Text

/-- A run of a table: first and last code point, step and shift. -/
abbrev CaseRun := Nat × Nat × Nat × Int

/-- A code point that a run shifts. -/
def OnRun (r : CaseRun) (n : Nat) : Prop :=
  r.1 ≤ n ∧ n ≤ r.2.1 ∧ (n - r.1) % r.2.2.1 = 0

/-- Where a run shifts a code point to. -/
def runTarget (r : CaseRun) (n : Nat) : Nat := (n + r.2.2.2).toNat

/-- A run leads past another one: before it, behind it, or between its steps of two.
The table is compared with itself by evaluation, hence the comparisons in `Bool`. -/
def leadsPast (r q : CaseRun) : Bool :=
  (runTarget r r.2.1).blt q.1 || q.2.1.blt (runTarget r r.1) ||
    ((r.2.2.1.beq 2 || r.1.beq r.2.1) && q.2.2.1.beq 2 && ((runTarget r r.1 + q.1) % 2).beq 1)

/-- A character that lower case leaves alone, wherever it stands. -/
def IsSettled (c : Char) : Prop := c.toNat ≠ 0x3A3 ∧ lowerChar c = [c]

instance (c : Char) : Decidable (IsSettled c) := inferInstanceAs (Decidable (_ ∧ _))

/-! ### Runs -/

theorem not_onRun_runTarget {r q : CaseRun} {n : Nat} (hr : 0 ≤ r.1 + r.2.2.2)
    (h : leadsPast r q = true) (hn : OnRun r n) : ¬ OnRun q (runTarget r n) := by
  obtain ⟨first, last, step, shift⟩ := r
  obtain ⟨first', last', step', shift'⟩ := q
  obtain ⟨hfirst, hlast, hstep⟩ := hn
  rintro ⟨hfirst', hlast', hstep'⟩
  simp only [leadsPast, runTarget, Bool.or_eq_true, Bool.and_eq_true, Nat.blt_eq,
    Nat.beq_eq] at *
  rcases h with (h | h) | ⟨⟨h, rfl⟩, hparity⟩
  · omega
  · omega
  · -- both in steps of two, from first places of different parity
    rcases h with rfl | rfl <;> omega

/-- The places that no run leads to, other than those on runs: the capital I with a dot,
which has a rule of its own, and the code points that are no characters. -/
def otherPlaces : List CaseRun := [(0x130, 0x130, 1, 0), (0xD800, 0xDFFF, 1, 0)]

/-- The places that the rules of single characters lead to: the small i and the dot above
it, and the two small sigmas. -/
def rulePlaces : List Nat := [0x69, 0x307, 0x3C2, 0x3C3]

/-- A run that leaves its only place where it is. -/
def standing (n : Nat) : CaseRun := (n, n, 1, 0)

/-- All that lower case can lead to, as runs. -/
def targetRuns : List CaseRun := rulePlaces.map standing ++ lowerRuns

theorem leadsPast_targetRuns :
    (targetRuns.all fun r => (otherPlaces ++ lowerRuns).all (leadsPast r)) = true := by
  decide +kernel

theorem targetRuns_inBounds :
    ∀ r ∈ targetRuns, 0 ≤ r.1 + r.2.2.2 ∧ r.2.1 + r.2.2.2 < 0x110000 := by
  decide +kernel

theorem not_onRun_of_mem_targetRuns {r q : CaseRun} {n : Nat} (hr : r ∈ targetRuns)
    (hq : q ∈ otherPlaces ++ lowerRuns) (hn : OnRun r n) : ¬ OnRun q (runTarget r n) := by
  have hpast := List.all_eq_true.1 (List.all_eq_true.1 leadsPast_targetRuns r hr) q hq
  exact not_onRun_runTarget (targetRuns_inBounds r hr).1 hpast hn

theorem shiftIn_eq_zero {runs : List CaseRun} {n : Nat} (h : ∀ q ∈ runs, ¬ OnRun q n) :
    shiftIn runs n = 0 := by
  have hnone : runs.find? (fun r => r.1 ≤ n && n ≤ r.2.1 && (n - r.1) % r.2.2.1 == 0) = none := by
    refine List.find?_eq_none.2 fun q hq hfound => h q hq ?_
    simpa [OnRun, and_assoc] using hfound
  rw [shiftIn, hnone]

/-- A shift is none, or the one of a run that the code point lies on. -/
theorem shiftIn_cases (runs : List CaseRun) (n : Nat) :
    shiftIn runs n = 0 ∨ ∃ r ∈ runs, OnRun r n ∧ shiftIn runs n = r.2.2.2 := by
  rw [shiftIn]
  split
  · next r hfound =>
      have hon := List.find?_some hfound
      simp only [Bool.and_eq_true, decide_eq_true_eq, beq_iff_eq, and_assoc] at hon
      exact .inr ⟨r, List.mem_of_find?_eq_some hfound, hon, rfl⟩
  · exact .inl rfl

theorem toNat_charOfNat {n : Nat} (h : n.isValidChar) : (Char.ofNat n).toNat = n := by
  rw [Char.ofNat, dif_pos h]
  rfl

/-! ### Settled characters -/

theorem toLower_eq_self {c : Char} (h : ¬ (0x41 ≤ c.toNat ∧ c.toNat ≤ 0x5a)) : c.toLower = c := by
  refine dif_neg ?_
  rintro ⟨hfirst, hlast⟩
  exact h ⟨UInt32.le_iff_toNat_le.1 hfirst, UInt32.le_iff_toNat_le.1 hlast⟩

theorem isSettled_of_not_onRun {c : Char} (h : ∀ q ∈ otherPlaces ++ lowerRuns, ¬ OnRun q c.toNat) :
    IsSettled c := by
  have hcapital := h (0x41, 0x5a, 1, 32) (by decide)
  have hsigma := h (0x3a3, 0x3ab, 1, 32) (by decide)
  have hdotted := h (0x130, 0x130, 1, 0) (by decide)
  have hshift : shiftIn lowerRuns c.toNat = 0 :=
    shiftIn_eq_zero fun q hq => h q (List.mem_append_right _ hq)
  simp only [OnRun, Nat.mod_one, and_true] at hcapital hsigma hdotted
  refine ⟨by omega, ?_⟩
  rw [lowerChar]
  split
  · rw [toLower_eq_self hcapital]
  · rw [if_neg (by omega), shifted, hshift, Int.add_zero, Int.toNat_natCast, Char.ofNat_toNat]

theorem isSettled_runTarget {r : CaseRun} {n : Nat} (hr : r ∈ targetRuns) (hn : OnRun r n) :
    IsSettled (Char.ofNat (runTarget r n)) := by
  have hbounds := targetRuns_inBounds r hr
  have hsurrogates :=
    not_onRun_of_mem_targetRuns (q := (0xD800, 0xDFFF, 1, 0)) hr (by decide) hn
  have hvalid : (runTarget r n).isValidChar := by
    obtain ⟨hfirst, hlast, -⟩ := hn
    simp only [OnRun, Nat.mod_one, and_true] at hsurrogates
    have hmax : runTarget r n < 0x110000 := by
      rw [runTarget]
      omega
    rw [Nat.isValidChar]
    omega
  refine isSettled_of_not_onRun fun q hq => ?_
  rw [toNat_charOfNat hvalid]
  exact not_onRun_of_mem_targetRuns hr hq hn

theorem isSettled_rulePlace {n : Nat} (hn : n ∈ rulePlaces) : IsSettled (Char.ofNat n) := by
  have hrun : standing n ∈ targetRuns := List.mem_append_left _ (List.mem_map_of_mem hn)
  have hon : OnRun (standing n) n := ⟨Nat.le_refl n, Nat.le_refl n, Nat.mod_one _⟩
  simpa [runTarget, standing] using isSettled_runTarget hrun hon

theorem isSettled_toLower : ∀ n < 128, IsSettled (Char.ofNat n).toLower := by
  decide +kernel

/-- The lower case of a character is settled. -/
theorem isSettled_of_mem_lowerChar {c d : Char} (hc : c.toNat ≠ 0x3A3) (hd : d ∈ lowerChar c) :
    IsSettled d := by
  by_cases hsmall : c.toNat < 128
  · rw [lowerChar, if_pos hsmall, List.mem_singleton] at hd
    have hsettled := isSettled_toLower c.toNat hsmall
    rwa [Char.ofNat_toNat, ← hd] at hsettled
  by_cases hdotted : c.toNat = 0x130
  · rw [lowerChar, if_neg hsmall, if_pos hdotted, List.mem_cons, List.mem_singleton] at hd
    rcases hd with rfl | rfl
    · exact isSettled_rulePlace (by decide)
    · exact isSettled_rulePlace (by decide)
  have hother := hd
  rw [lowerChar, if_neg hsmall, if_neg hdotted, List.mem_singleton, shifted] at hother
  rcases shiftIn_cases lowerRuns c.toNat with hzero | ⟨r, hr, hon, hshift⟩
  · rw [hzero, Int.add_zero, Int.toNat_natCast, Char.ofNat_toNat] at hother
    rw [hother]
    refine ⟨hc, ?_⟩
    rw [lowerChar, if_neg hsmall, if_neg hdotted, shifted, hzero, Int.add_zero, Int.toNat_natCast,
      Char.ofNat_toNat]
  · rw [hshift] at hother
    rw [hother]
    exact isSettled_runTarget (List.mem_append_right _ hr) hon

theorem isSettled_of_mem_lowerFrom {t : Text} :
    ∀ {before : Text}, ∀ c ∈ lowerFrom before t, IsSettled c := by
  induction t with
  | nil => simp [lowerFrom]
  | cons c t ih =>
      intro before d hd
      rw [lowerFrom] at hd
      rcases List.mem_append.1 hd with hhead | hrest
      · by_cases hsigma : c.toNat = 0x3A3
        · rw [if_pos hsigma, List.mem_singleton] at hhead
          rw [hhead]
          split
          · exact isSettled_rulePlace (by decide)
          · exact isSettled_rulePlace (by decide)
        · rw [if_neg hsigma] at hhead
          exact isSettled_of_mem_lowerChar hsigma hhead
      · exact ih d hrest

theorem lowerFrom_eq_self {t : Text} (h : ∀ c ∈ t, IsSettled c) (before : Text) :
    lowerFrom before t = t := by
  induction t generalizing before with
  | nil => rfl
  | cons c t ih =>
      obtain ⟨hsigma, hlower⟩ := h c List.mem_cons_self
      rw [lowerFrom, ih fun d hd => h d (List.mem_cons_of_mem _ hd)]
      simp only [if_neg hsigma, hlower, List.singleton_append]

/-! ### Lower case -/

@[simp] theorem lower_nil : lower [] = [] := rfl

@[simp] theorem lower_lower (t : Text) : lower (lower t) = lower t :=
  lowerFrom_eq_self isSettled_of_mem_lowerFrom []

theorem lowerChar_ne_nil (c : Char) : lowerChar c ≠ [] := by
  rw [lowerChar]
  split
  · simp
  · split <;> simp

theorem lower_eq_nil_iff {t : Text} : lower t = [] ↔ t = [] := by
  refine ⟨fun h => ?_, fun h => by rw [h, lower_nil]⟩
  cases t with
  | nil => rfl
  | cons c t =>
      rw [lower, lowerFrom, List.append_eq_nil_iff] at h
      have hhead := h.1
      split at hhead
      · cases hhead
      · exact absurd hhead (lowerChar_ne_nil c)

end DocPress.Text
