import DocPress.Press.Basic

/-!
# Batches of units

What becomes of a unit depends on the unit and the scanners alone.  `Documents`,
`PassesOver` and `FailsOn` say so without reference to reports, and exactly one of
the three holds (`hasOneOutcome`).  `Collected` sorts a batch into three lists by
these rules, one unit after the other.

The main statement is that the report of a scan is the batch sorted, that nothing is
dropped or doubled, and that the report about two batches together is the two reports
one after the other.
-/

namespace DocPress

/-- The scanner for the language of a unit made a file of it. -/
def Documents (scanners : Registry Scanner) (u : SourceUnit) (f : FileDoc) : Prop :=
  ∃ s, scanners.get? (some u.language) = some s ∧ s.scan u = .ok (some f)

/-- No scanner is for the language of a unit, or the one that is found nothing. -/
def PassesOver (scanners : Registry Scanner) (u : SourceUnit) : Prop :=
  ∀ s, scanners.get? (some u.language) = some s → s.scan u = .ok none

/-- The scanner for the language of a unit gave up; the message is in its words. -/
def FailsOn (scanners : Registry Scanner) (u : SourceUnit) (f : UnitFailure) : Prop :=
  ∃ s e, scanners.get? (some u.language) = some s ∧ s.scan u = .error e ∧
    f = ⟨u.path, u.language, e.message u.path⟩

/-- A unit has one outcome of three, and a file or a failure of its own. -/
structure HasOneOutcome (scanners : Registry Scanner) (u : SourceUnit) : Prop where
  outcome : (∃ f, Documents scanners u f) ∨ PassesOver scanners u ∨ ∃ e, FailsOn scanners u e
  documented : ∀ f, Documents scanners u f →
    ¬ PassesOver scanners u ∧ (∀ e, ¬ FailsOn scanners u e) ∧ ∀ g, Documents scanners u g → g = f
  failed : ∀ e, FailsOn scanners u e →
    ¬ PassesOver scanners u ∧ ∀ d, FailsOn scanners u d → d = e

/-- A batch of units sorted into files, paths passed over and failures, each list in
the order of the units. -/
inductive Collected (scanners : Registry Scanner) :
    List SourceUnit → List FileDoc → List Text → List UnitFailure → Prop
  | nil : Collected scanners [] [] [] []
  | documented {u us f fs ss es} : Documents scanners u f → Collected scanners us fs ss es →
      Collected scanners (u :: us) (f :: fs) ss es
  | passedOver {u us fs ss es} : PassesOver scanners u → Collected scanners us fs ss es →
      Collected scanners (u :: us) fs (u.path :: ss) es
  | failed {u us fs ss e es} : FailsOn scanners u e → Collected scanners us fs ss es →
      Collected scanners (u :: us) fs ss (e :: es)

variable {scanners : Registry Scanner} {u : SourceUnit} {us : List SourceUnit}
  {fs : List FileDoc} {ss : List Text} {es : List UnitFailure}

/-! ### What becomes of a unit -/

theorem Documents.ofUnit_eq {f : FileDoc} (h : Documents scanners u f) :
    UnitOutcome.ofUnit scanners u = .scanned f := by
  obtain ⟨s, hs, hscan⟩ := h
  simp only [UnitOutcome.ofUnit, hs, hscan, UnitOutcome.ofAnswer]

theorem FailsOn.ofUnit_eq {e : UnitFailure} (h : FailsOn scanners u e) :
    UnitOutcome.ofUnit scanners u = .failed e := by
  obtain ⟨s, cause, hs, hscan, rfl⟩ := h
  simp only [UnitOutcome.ofUnit, hs, hscan, UnitOutcome.ofAnswer]

theorem PassesOver.ofUnit_eq (h : PassesOver scanners u) :
    UnitOutcome.ofUnit scanners u = .unclaimed u.path ∨
      UnitOutcome.ofUnit scanners u = .empty u.path := by
  rw [UnitOutcome.ofUnit]
  cases hs : scanners.get? (some u.language) with
  | none => exact .inl rfl
  | some s =>
      refine .inr ?_
      simp only [h s hs, UnitOutcome.ofAnswer]

/-- The scanner of a unit, if there is one, returns a file, returns nothing or fails. -/
theorem documents_or_passesOver_or_failsOn (scanners : Registry Scanner) (u : SourceUnit) :
    (∃ f, Documents scanners u f) ∨ PassesOver scanners u ∨ ∃ e, FailsOn scanners u e := by
  cases hs : scanners.get? (some u.language) with
  | none =>
      refine .inr (.inl fun s hs' => ?_)
      rw [hs] at hs'
      cases hs'
  | some s =>
      cases hscan : s.scan u with
      | error e => exact .inr (.inr ⟨_, s, e, hs, hscan, rfl⟩)
      | ok found =>
          cases found with
          | some f => exact .inl ⟨f, s, hs, hscan⟩
          | none =>
              refine .inr (.inl fun s' hs' => ?_)
              obtain rfl := Option.some.inj (hs.symm.trans hs')
              exact hscan

theorem hasOneOutcome (scanners : Registry Scanner) (u : SourceUnit) :
    HasOneOutcome scanners u := by
  -- two outcomes at once would give the unit two different values of `ofUnit`
  refine ⟨documents_or_passesOver_or_failsOn scanners u, fun f hf => ⟨?_, ?_, ?_⟩,
    fun e he => ⟨?_, ?_⟩⟩
  · intro hpass
    have heq := hpass.ofUnit_eq
    rw [hf.ofUnit_eq] at heq
    rcases heq with heq | heq <;> cases heq
  · intro e he
    have heq := he.ofUnit_eq
    rw [hf.ofUnit_eq] at heq
    cases heq
  · intro g hg
    exact UnitOutcome.scanned.inj (hg.ofUnit_eq.symm.trans hf.ofUnit_eq)
  · intro hpass
    have heq := hpass.ofUnit_eq
    rw [he.ofUnit_eq] at heq
    rcases heq with heq | heq <;> cases heq
  · intro d hd
    exact UnitOutcome.failed.inj (hd.ofUnit_eq.symm.trans he.ofUnit_eq)

/-! ### Batches sorted unit by unit -/

theorem Collected.length_add (h : Collected scanners us fs ss es) :
    fs.length + ss.length + es.length = us.length := by
  induction h with
  | nil => rfl
  | documented _ _ ih => simp only [List.length_cons]; omega
  | passedOver _ _ ih => simp only [List.length_cons]; omega
  | failed _ _ ih => simp only [List.length_cons]; omega

/-- Every batch can be sorted. -/
theorem exists_collected (scanners : Registry Scanner) (us : List SourceUnit) :
    ∃ fs ss es, Collected scanners us fs ss es := by
  induction us with
  | nil => exact ⟨[], [], [], .nil⟩
  | cons u us ih =>
      obtain ⟨fs, ss, es, hrest⟩ := ih
      rcases documents_or_passesOver_or_failsOn scanners u with ⟨f, hf⟩ | hpass | ⟨e, he⟩
      · exact ⟨f :: fs, ss, es, .documented hf hrest⟩
      · exact ⟨fs, u.path :: ss, es, .passedOver hpass hrest⟩
      · exact ⟨fs, ss, e :: es, .failed he hrest⟩

namespace Press

variable {p : Press}

theorem scan_append (p : Press) (us vs : List SourceUnit) :
    p.scan (us ++ vs) =
      ⟨⟨p.projectName, (p.scan us).project.files ++ (p.scan vs).project.files⟩,
        (p.scan us).skipped ++ (p.scan vs).skipped,
        (p.scan us).failures ++ (p.scan vs).failures⟩ := by
  simp only [scan, outcomes, Report.ofOutcomes, List.map_append, List.filterMap_append]

/-- One more unit in front adds what its outcome shows to one of the lists. -/
theorem scan_cons (p : Press) (u : SourceUnit) (us : List SourceUnit) :
    p.scan (u :: us) =
      ⟨⟨p.projectName,
          (UnitOutcome.ofUnit p.scanners u).file?.toList ++ (p.scan us).project.files⟩,
        (UnitOutcome.ofUnit p.scanners u).skipped?.toList ++ (p.scan us).skipped,
        (UnitOutcome.ofUnit p.scanners u).failure?.toList ++ (p.scan us).failures⟩ := by
  simp only [scan, outcomes, Report.ofOutcomes, List.map_cons]
  cases UnitOutcome.ofUnit p.scanners u <;> rfl

/-- The report of a scan is the batch sorted. -/
theorem scan_eq_of_collected (h : Collected p.scanners us fs ss es) :
    p.scan us = ⟨⟨p.projectName, fs⟩, ss, es⟩ := by
  induction h with
  | nil => rfl
  | documented hf _ ih => rw [scan_cons, hf.ofUnit_eq, ih]; rfl
  | passedOver hpass _ ih =>
      rw [scan_cons, ih]
      rcases hpass.ofUnit_eq with heq | heq <;> rw [heq] <;> rfl
  | failed he _ ih => rw [scan_cons, he.ofUnit_eq, ih]; rfl

theorem collected_iff :
    Collected p.scanners us fs ss es ↔ p.scan us = ⟨⟨p.projectName, fs⟩, ss, es⟩ := by
  refine ⟨scan_eq_of_collected, fun h => ?_⟩
  obtain ⟨fs', ss', es', hcollected⟩ := exists_collected p.scanners us
  rw [scan_eq_of_collected hcollected] at h
  cases h
  exact hcollected

/-- A scan gives every unit one outcome and sorts the batch by it, in the order of the
units; the three lists together are as long as the batch; and what becomes of some
units does not depend on those before or behind them. -/
theorem scan_sorts_batch (p : Press) :
    (∀ u, HasOneOutcome p.scanners u) ∧
      (∀ us fs ss es,
        p.scan us = ⟨⟨p.projectName, fs⟩, ss, es⟩ ↔ Collected p.scanners us fs ss es) ∧
      (∀ us, (p.scan us).project.files.length + (p.scan us).skipped.length
        + (p.scan us).failures.length = us.length) ∧
      ∀ us vs,
        (p.scan (us ++ vs)).project.files = (p.scan us).project.files ++ (p.scan vs).project.files ∧
          (p.scan (us ++ vs)).skipped = (p.scan us).skipped ++ (p.scan vs).skipped ∧
          (p.scan (us ++ vs)).failures = (p.scan us).failures ++ (p.scan vs).failures := by
  refine ⟨hasOneOutcome p.scanners, fun us fs ss es => collected_iff.symm, fun us => ?_,
    fun us vs => ?_⟩
  · obtain ⟨fs, ss, es, hcollected⟩ := exists_collected p.scanners us
    rw [scan_eq_of_collected hcollected]
    exact hcollected.length_add
  · rw [scan_append]
    exact ⟨rfl, rfl, rfl⟩

end Press
end DocPress
