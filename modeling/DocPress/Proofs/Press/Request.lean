import DocPress.Proofs.Press.Registry

/-!
# Requests to a press

A request ends in one of three ways, and what decides first is whether the format has a
generator.  `Answers` has one rule for each way, with the disk and the scanner calls that the
request leaves behind.  A rule needs nothing but what the generator itself does with the
scanned project, so nothing that happens to a unit can end a request.

The main statement is that a request has the answers of these rules and no others, and that
without a generator no scanner is called: the answer is the same whatever the scanners and the
units are.
-/

namespace DocPress

/-- The report about a failed generator: its own one as it is, and any other failure under
the format of the generator and in its own words. -/
inductive IsReportOf (format : Text) : GeneratorFailure → GenerationError → Prop
  | own (e : GenerationError) : IsReportOf format (.generation e) e
  | wrapped (message : Text) : IsReportOf format (.other message) ⟨format, .other message⟩

theorem isReportOf_report (format : Text) (failure : GeneratorFailure) :
    IsReportOf format failure (failure.report format) := by
  cases failure with
  | generation e => exact .own e
  | other message => exact .wrapped message

theorem IsReportOf.eq_report {format : Text} {failure : GeneratorFailure} {e : GenerationError}
    (h : IsReportOf format failure e) : e = failure.report format := by
  cases h <;> rfl

namespace Press

/-- The scanner calls for some units: one for every unit that has a scanner, in their order. -/
def callsFor (p : Press) (units : List SourceUnit) : List ScannerCall :=
  units.filterMap fun u => (p.scanners.get? (some u.language)).map fun s => (s, u)

variable {p : Press} {runName : Text} {u : SourceUnit} {units : List SourceUnit}
  {format : Option Text} {state : PressState} {g : Generator}

/-- How a request to a press ends, and what it leaves behind. -/
inductive Answers (p : Press) (runName : Text) (units : List SourceUnit) (format : Option Text)
    (state : PressState) : Except PressError (Artifact × Report) × PressState → Prop
  /-- The format has no generator: nothing is written, and no scanner is called. -/
  | refused : p.generators.get? format = none →
      Answers p runName units format state
        (.error (.configuration (.unknown "generator".toList format p.generators.identifiers)),
          state)
  /-- The generator gave up on the scanned project. -/
  | failed {g : Generator} {failure : GeneratorFailure} {e : GenerationError} {d : Disk} :
      p.generators.get? format = some g →
      (g.run runName (p.scan units).project).run.run state.disk = (.error failure, d) →
      IsReportOf g.format failure e →
      Answers p runName units format state
        (.error (.generation e), ⟨d, state.calls ++ p.callsFor units⟩)
  /-- The generator made its artifact of the scanned project. -/
  | made {g : Generator} {a : Artifact} {d : Disk} :
      p.generators.get? format = some g →
      (g.run runName (p.scan units).project).run.run state.disk = (.ok a, d) →
      Answers p runName units format state
        (.ok (a, p.scan units), ⟨d, state.calls ++ p.callsFor units⟩)

/-! ### Scanner calls -/

/-- A task that begins with one that ends well goes on with its result. -/
theorem run_bind_of_ok {ε α β : Type} {task : PressTask ε α} {next : α → PressTask ε β} {a : α}
    {before after : PressState} (h : task.run.run before = (.ok a, after)) :
    (task >>= next).run.run before = (next a).run.run after := by
  rw [ExceptT.run_bind, StateT.run_bind, h]
  rfl

/-- Examining a unit gives its outcome and calls the scanner that it has. -/
theorem run_examine (p : Press) (u : SourceUnit) (state : PressState) :
    (p.examine u).run.run state =
      (.ok (UnitOutcome.ofUnit p.scanners u), ⟨state.disk, state.calls ++ p.callsFor [u]⟩) := by
  rw [examine, UnitOutcome.ofUnit, callsFor, List.filterMap_cons]
  cases p.scanners.get? (some u.language) with
  | none =>
      rw [Option.map_none, List.filterMap_nil, List.append_nil]
      rfl
  | some s => rfl

theorem run_mapM_examine (p : Press) (units : List SourceUnit) (state : PressState) :
    (units.mapM p.examine).run.run state =
      (.ok (p.outcomes units), ⟨state.disk, state.calls ++ p.callsFor units⟩) := by
  induction units generalizing state with
  | nil =>
      rw [callsFor, List.filterMap_nil, List.append_nil]
      rfl
  | cons u units ih =>
      have hcalls : p.callsFor (u :: units) = p.callsFor [u] ++ p.callsFor units :=
        List.filterMap_append (l := [u])
      rw [List.mapM_cons, run_bind_of_ok (run_examine p u state), run_bind_of_ok (ih _), hcalls,
        List.append_assoc]
      rfl

/-! ### Runs of a request -/

theorem run_generate_of_none (hget : p.generators.get? format = none) :
    (p.generate runName units format).run.run state =
      (.error (.configuration
        (.unknown p.generators.kind format p.generators.identifiers)), state) := by
  simp only [generate, Registry.require, hget]
  rfl

/-- Rendering is one run of the generator; its failure is reported. -/
theorem run_onDisk_render (g : Generator) (runName : Text) (project : Project)
    (state : PressState) :
    (PressTask.onDisk (ExceptT.adapt PressError.generation (render g runName project))).run.run
        state =
      match (g.run runName project).run.run state.disk with
      | (.ok a, d) => (.ok a, ⟨d, state.calls⟩)
      | (.error failure, d) =>
          (.error (.generation (failure.report g.format)), ⟨d, state.calls⟩) := by
  have hrun : (PressTask.onDisk (ExceptT.adapt PressError.generation
      (render g runName project))).run.run state =
      ((((g.run runName project).run.run state.disk).1.mapError (·.report g.format)).mapError
          PressError.generation,
        ⟨((g.run runName project).run.run state.disk).2, state.calls⟩) :=
    rfl
  rw [hrun]
  rcases (g.run runName project).run.run state.disk with ⟨_ | a, d⟩ <;> rfl

/-- With a generator at hand, a request scans all units and is then one run of the generator,
with its failure reported. -/
theorem run_generate_of_some (hget : p.generators.get? format = some g) :
    (p.generate runName units format).run.run state =
      match (g.run runName (p.scan units).project).run.run state.disk with
      | (.ok a, d) => (.ok (a, p.scan units), ⟨d, state.calls ++ p.callsFor units⟩)
      | (.error failure, d) =>
          (.error (.generation (failure.report g.format)),
            ⟨d, state.calls ++ p.callsFor units⟩) := by
  have hlookup : (ExceptT.adapt .configuration (ExceptT.mk (pure (p.generators.require format))) :
      PressTask PressError Generator) = pure g := by
    rw [Registry.require_eq_ok_iff.2 hget]
    rfl
  rw [generate, hlookup, pure_bind, run_bind_of_ok (run_mapM_examine p units state),
    ExceptT.run_bind, StateT.run_bind, run_onDisk_render, ← scan]
  rcases (g.run runName (p.scan units).project).run.run state.disk with ⟨_ | a, d⟩ <;> rfl

theorem kind_generators_of_build {scanners : List Scanner} {generators : List Generator}
    {name : Text} (hbuild : build scanners generators name = .ok p) :
    p.generators.kind = "generator".toList := by
  rw [build] at hbuild
  cases hscanners : Registry.build scannerView "scanner".toList scanners with
  | error e =>
      rw [hscanners] at hbuild
      cases hbuild
  | ok r =>
      cases hgenerators : Registry.build generatorView "generator".toList generators with
      | error e =>
          rw [hscanners, hgenerators] at hbuild
          cases hbuild
      | ok r' =>
          rw [hscanners, hgenerators] at hbuild
          cases hbuild
          exact (Registry.holds_build hgenerators).2

/-- A press answers every request by one of the three rules. -/
theorem answers_generate (hkind : p.generators.kind = "generator".toList) :
    Answers p runName units format state ((p.generate runName units format).run.run state) := by
  cases hget : p.generators.get? format with
  | none =>
      rw [run_generate_of_none hget, hkind]
      exact .refused hget
  | some g =>
      rw [run_generate_of_some hget]
      rcases hrun : (g.run runName (p.scan units).project).run.run state.disk with ⟨failure | a, d⟩
      · exact .failed hget hrun (isReportOf_report g.format failure)
      · exact .made hget hrun

/-- The rules leave no choice. -/
theorem Answers.eq_run (hkind : p.generators.kind = "generator".toList)
    {answer : Except PressError (Artifact × Report) × PressState}
    (h : Answers p runName units format state answer) :
    (p.generate runName units format).run.run state = answer := by
  cases h with
  | refused hget => rw [run_generate_of_none hget, hkind]
  | failed hget hrun hreport => rw [run_generate_of_some hget, hrun, hreport.eq_report]
  | made hget hrun => rw [run_generate_of_some hget, hrun]

/-- A request to a press ends by exactly one of three rules: it is refused when the format
has no generator, it fails with the report of the generator's failure, or it gives what the
generator made of the scanned project.  For a refused request no scanner is called, and its
answer does not depend on the scanners, on the units or on the name of the project. -/
theorem generate_answers {scanners : List Scanner} {generators : List Generator} {name : Text}
    (hbuild : build scanners generators name = .ok p) :
    (∀ runName units format state answer,
        (p.generate runName units format).run.run state = answer ↔
          Answers p runName units format state answer) ∧
      (∀ format, p.generators.get? format = none → ∀ runName units state,
        ((p.generate runName units format).run.run state).2.calls = state.calls) ∧
      ∀ format, p.generators.get? format = none →
        ∀ q : Press, q.generators = p.generators → ∀ runName runName' units units' state,
          (q.generate runName' units' format).run.run state =
            (p.generate runName units format).run.run state := by
  have hkind := kind_generators_of_build hbuild
  refine ⟨fun runName units format state answer => ⟨?_, Answers.eq_run hkind⟩, ?_, ?_⟩
  · rintro rfl
    exact answers_generate hkind
  · intro format hget runName units state
    rw [run_generate_of_none hget]
  · intro format hget q hq runName runName' units units' state
    rw [run_generate_of_none hget, run_generate_of_none (by rw [hq, hget]), hq]

/-- A scanner that fails on every unit. -/
def brokenScanner : Scanner :=
  ⟨"BrokenScanner".toList, "java".toList, fun _ => .error (.badValue "scanner crashed".toList)⟩

/-- A generator that fails on every project. -/
def brokenGenerator : Generator :=
  ⟨"BrokenGenerator".toList, "broken".toList, fun _ _ => throw (.other "disk full".toList)⟩

theorem generate_answers_broken :
    ∃ p : Press, build [brokenScanner] [brokenGenerator] defaultName = .ok p ∧
      (∀ runName u state, u.language = "java".toList →
        (p.generate runName [u] (some "Broken".toList)).run.run state =
          (.error (.generation ⟨"broken".toList, .other "disk full".toList⟩),
            ⟨state.disk, state.calls ++ [(brokenScanner, u)]⟩)) ∧
      ∀ runName units state, (p.generate runName units (some "docx".toList)).run.run state =
        (.error (.configuration (.unknown "generator".toList (some "docx".toList)
          p.generators.identifiers)), state) := by
  have hbuild : build [brokenScanner] [brokenGenerator] defaultName =
      .ok ⟨⟨"scanner".toList, [("java".toList, brokenScanner)]⟩,
        ⟨"generator".toList, [("broken".toList, brokenGenerator)]⟩, defaultName⟩ := by rfl
  refine ⟨_, hbuild, fun runName u state hjava => ?_, fun runName units state => ?_⟩
  · have hanswer := ((generate_answers hbuild).1 runName [u] (some "Broken".toList) state _).2
      (.failed (g := brokenGenerator) rfl rfl (.wrapped "disk full".toList))
    rw [hanswer, callsFor, List.filterMap_cons, hjava]
    rfl
  · exact ((generate_answers hbuild).1 _ _ _ _ _).2 (.refused rfl)

end Press
end DocPress
