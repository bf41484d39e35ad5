import DocPress.Press.Basic
import DocPress.Proofs.Text.Case
import Mathlib.Data.List.Nodup

/-!
# Registries as finite maps

A registry that is built holds every handler once, under its identifier in lower case, and
no two handlers under one identifier (`Holds`).  Every question to a registry is answered
from that map, and lower case is final, so the answers fit together, with two exceptions
that are stated exactly:

* the empty identifier is listed and contained when a handler has it, but never looked up;
* a scanner compares the language of a unit, in lower case, with its own language as it is
  written, so it takes the units that the registry hands to it only when its language is
  written in lower case.
-/

namespace DocPress

open Text (lower lower_lower lower_eq_nil_iff)

namespace Registry

variable {α : Type} {view : HandlerView α} {kind : Text} {handlers : List α} {r : Registry α}

/-- A registry that holds some handlers, each under its identifier in lower case. -/
structure Holds (view : HandlerView α) (handlers : List α) (r : Registry α) : Prop where
  entries : r.handlers = handlers.map fun h => (lower (view.identifier h), h)
  nodup : (handlers.map fun h => lower (view.identifier h)).Nodup

/-- The only one of some handlers that is for an identifier, in any letter case. -/
structure IsHandlerOf (view : HandlerView α) (handlers : List α) (s : Text) (h : α) : Prop where
  mem : h ∈ handlers
  identifier : lower (view.identifier h) = lower s
  only : ∀ g ∈ handlers, lower (view.identifier g) = lower s → g = h

/-- All questions about an identifier have the same answer, and the handler that is had is
the one for the identifier. -/
structure AgreeOn (view : HandlerView α) (handlers : List α) (r : Registry α) (s : Text) :
    Prop where
  found : r.contains s = true ↔ (r.get? (some s)).isSome = true
  required : r.contains s = true ↔ ∃ h, r.require (some s) = .ok h
  listed : r.contains s = true ↔ lower s ∈ r.identifiers
  handler : r.contains s = true → ∃ h, IsHandlerOf view handlers s h ∧
    r.get? (some s) = some h ∧ r.require (some s) = .ok h

/-! ### Building -/

theorem find?_eq_none_iff {key : Text} : r.find? key = none ↔ key ∉ r.handlers.map Prod.fst := by
  simp only [find?, Option.map_eq_none_iff, List.find?_eq_none, beq_iff_eq, List.mem_map,
    not_exists, not_and]

/-- A handler is added exactly when its identifier is new. -/
theorem add_eq_ok {h : α} {r' : Registry α} (hadd : add view r h = .ok r') :
    lower (view.identifier h) ∉ r.handlers.map Prod.fst ∧
      r' = ⟨r.kind, r.handlers ++ [(lower (view.identifier h), h)]⟩ := by
  rw [add] at hadd
  split at hadd
  · cases hadd
  · next hnone =>
      cases hadd
      exact ⟨find?_eq_none_iff.1 hnone, rfl⟩

theorem Holds.add {h : α} {r' : Registry α} (hr : Holds view handlers r)
    (hadd : Registry.add view r h = .ok r') : Holds view (handlers ++ [h]) r' := by
  obtain ⟨hnew, rfl⟩ := add_eq_ok hadd
  refine ⟨by simp [hr.entries], ?_⟩
  rw [hr.entries, List.map_map] at hnew
  rw [List.map_append, List.nodup_append']
  refine ⟨hr.nodup, List.nodup_singleton _, List.disjoint_singleton.2 hnew⟩

/-- Adding handlers one after the other keeps the invariant; those in front of the batch
are the ones that are held already. -/
theorem Holds.foldlM {more : List α} {r r' : Registry α} {handlers : List α}
    (hr : Holds view handlers r) (hfold : more.foldlM (Registry.add view) r = .ok r') :
    Holds view (handlers ++ more) r' ∧ r'.kind = r.kind := by
  induction more generalizing r handlers with
  | nil =>
      cases hfold
      exact ⟨by rwa [List.append_nil], rfl⟩
  | cons h more ih =>
      rw [List.foldlM_cons] at hfold
      cases hadd : Registry.add view r h with
      | error e =>
          rw [hadd] at hfold
          cases hfold
      | ok middle =>
          rw [hadd] at hfold
          obtain ⟨hholds, hkind⟩ := ih (hr.add hadd) hfold
          have hmiddle : middle.kind = r.kind := by rw [(add_eq_ok hadd).2]
          rw [List.append_assoc] at hholds
          exact ⟨hholds, hkind.trans hmiddle⟩

theorem holds_build (hbuild : build view kind handlers = .ok r) :
    Holds view handlers r ∧ r.kind = kind := by
  have hempty : Holds view [] (⟨kind, []⟩ : Registry α) := ⟨rfl, List.nodup_nil⟩
  simpa using hempty.foldlM hbuild

/-! ### Looking up -/

theorem Holds.find?_eq_some_iff {key : Text} {h : α} (hr : Holds view handlers r) :
    r.find? key = some h ↔ h ∈ handlers ∧ lower (view.identifier h) = key := by
  rw [find?, hr.entries, List.find?_map, Option.map_map, Option.map_eq_some_iff]
  constructor
  · rintro ⟨g, hfound, rfl⟩
    exact ⟨List.mem_of_find?_eq_some hfound, by simpa using List.find?_some hfound⟩
  · rintro ⟨hmem, rfl⟩
    cases hfound : handlers.find? _ with
    | none => simpa using List.find?_eq_none.1 hfound h hmem
    | some g =>
        -- what stands first under a key is all that stands under it
        have hkey : lower (view.identifier g) = lower (view.identifier h) := by
          simpa using List.find?_some hfound
        exact ⟨g, rfl, List.inj_on_of_nodup_map hr.nodup
          (List.mem_of_find?_eq_some hfound) hmem hkey⟩

theorem Holds.isHandlerOf {s : Text} {h : α} (hr : Holds view handlers r)
    (hfound : r.find? (lower s) = some h) : IsHandlerOf view handlers s h := by
  obtain ⟨hmem, hkey⟩ := hr.find?_eq_some_iff.1 hfound
  exact ⟨hmem, hkey, fun g hg hgkey =>
    List.inj_on_of_nodup_map hr.nodup hg hmem (hgkey.trans hkey.symm)⟩

theorem Holds.contains_iff {s : Text} (hr : Holds view handlers r) :
    r.contains s = true ↔ ∃ h ∈ handlers, lower (view.identifier h) = lower s := by
  simp only [contains, Option.isSome_iff_exists, hr.find?_eq_some_iff]

theorem Holds.mem_identifiers {key : Text} (hr : Holds view handlers r) :
    key ∈ r.identifiers ↔ ∃ h ∈ handlers, lower (view.identifier h) = key := by
  simp [identifiers, Text.sort, hr.entries]

theorem Holds.contains_iff_listed {s : Text} (hr : Holds view handlers r) :
    r.contains s = true ↔ lower s ∈ r.identifiers := by
  rw [hr.contains_iff, hr.mem_identifiers]

@[simp] theorem get?_nil : r.get? (some []) = none := rfl

theorem get?_of_ne_nil {s : Text} (hs : s ≠ []) : r.get? (some s) = r.find? (lower s) := by
  cases s with
  | nil => exact absurd rfl hs
  | cons c s => rfl

/-- What is looked up is one of the handlers, for the identifier in some letter case. -/
theorem Holds.of_get?_eq_some {s : Text} {h : α} (hr : Holds view handlers r)
    (hget : r.get? (some s) = some h) :
    h ∈ handlers ∧ lower (view.identifier h) = lower s := by
  by_cases hs : s = []
  · subst hs
    cases hget
  · rw [get?_of_ne_nil hs] at hget
    exact hr.find?_eq_some_iff.1 hget

theorem require_eq_ok_iff {identifier : Option Text} {h : α} :
    r.require identifier = .ok h ↔ r.get? identifier = some h := by
  rw [require]
  cases r.get? identifier <;> simp

theorem require_eq_error_iff {identifier : Option Text} {e : RegistryError} :
    r.require identifier = .error e ↔
      r.get? identifier = none ∧ e = .unknown r.kind identifier r.identifiers := by
  rw [require]
  cases r.get? identifier <;> simp [eq_comm]

/-! ### The views of a registry -/

theorem Holds.agreeOn {s : Text} (hr : Holds view handlers r) (hs : s ≠ []) :
    AgreeOn view handlers r s := by
  have hcontains : r.contains s = (r.get? (some s)).isSome := by
    rw [contains, get?_of_ne_nil hs]
  refine ⟨by rw [hcontains], ?_, hr.contains_iff_listed, fun h => ?_⟩
  · simp only [hcontains, Option.isSome_iff_exists, require_eq_ok_iff]
  · rw [hcontains, Option.isSome_iff_exists] at h
    obtain ⟨x, hx⟩ := h
    refine ⟨x, hr.isHandlerOf ?_, hx, require_eq_ok_iff.2 hx⟩
    rwa [get?_of_ne_nil hs] at hx

/-- On the empty identifier the views agree when no handler has it: it is then found
nowhere. -/
theorem Holds.agreeOn_nil_iff (hr : Holds view handlers r) :
    AgreeOn view handlers r [] ↔ ∀ h ∈ handlers, view.identifier h ≠ [] := by
  have hcontains : r.contains [] = true ↔ ∃ h ∈ handlers, view.identifier h = [] := by
    rw [hr.contains_iff]
    simp only [Text.lower_nil, lower_eq_nil_iff]
  constructor
  · intro hagree h hmem hempty
    have hfound := hagree.found.1 (hcontains.2 ⟨h, hmem, hempty⟩)
    simp at hfound
  · intro hnamed
    have hnot : ¬ r.contains [] = true := by
      rw [hcontains]
      rintro ⟨h, hmem, hempty⟩
      exact hnamed h hmem hempty
    refine ⟨iff_of_false hnot (by simp), iff_of_false hnot ?_, hr.contains_iff_listed,
      fun h => absurd h hnot⟩
    rintro ⟨h, hh⟩
    cases require_eq_ok_iff.1 hh

/-- The views of a registry agree on an identifier exactly when it is not the empty one
that a handler has.  Of the identifiers that are listed, and that the refusal of another
one shows, all but the empty one can be required. -/
theorem views_agree_iff (hbuild : build view kind handlers = .ok r) :
    (∀ s, AgreeOn view handlers r s ↔ (s = [] → ∀ h ∈ handlers, view.identifier h ≠ [])) ∧
      (∀ i ∈ r.identifiers, (∃ h, r.require (some i) = .ok h) ↔ i ≠ []) ∧
      ∀ s e, r.require (some s) = .error e → e = .unknown kind (some s) r.identifiers := by
  obtain ⟨hr, hkind⟩ := holds_build hbuild
  refine ⟨fun s => ?_, fun i hi => ?_, fun s e he => ?_⟩
  · by_cases hs : s = []
    · subst hs
      simpa using hr.agreeOn_nil_iff
    · exact iff_of_true (hr.agreeOn hs) fun hempty => absurd hempty hs
  · constructor
    · rintro ⟨h, hh⟩ rfl
      cases require_eq_ok_iff.1 hh
    · intro hne
      -- a listed identifier is in lower case already, so it is looked up as it is listed
      have hlisted : lower i ∈ r.identifiers := by
        obtain ⟨h, -, rfl⟩ := hr.mem_identifiers.1 hi
        rwa [lower_lower]
      exact (hr.agreeOn hne).required.1 ((hr.agreeOn hne).listed.2 hlisted)
  · rw [← hkind]
    exact (require_eq_error_iff.1 he).2

/-- A handler without an identifier beside one for `Java`. -/
def spareViews : List (Text × Text) := [("JavaScanner".toList, "Java".toList), ("Spare".toList, [])]

theorem views_agree_iff_spare :
    ∃ r : Registry (Text × Text),
      build ⟨Prod.snd, Prod.fst⟩ "scanner".toList spareViews = .ok r ∧
        AgreeOn ⟨Prod.snd, Prod.fst⟩ spareViews r "JAVA".toList ∧
        ¬ AgreeOn ⟨Prod.snd, Prod.fst⟩ spareViews r [] := by
  have hbuild : build ⟨Prod.snd, Prod.fst⟩ "scanner".toList spareViews =
      .ok ⟨"scanner".toList, [("java".toList, ("JavaScanner".toList, "Java".toList)),
        ([], ("Spare".toList, []))]⟩ := by rfl
  refine ⟨_, hbuild, ((views_agree_iff hbuild).1 _).2 fun h => absurd h (by decide), fun h => ?_⟩
  exact ((views_agree_iff hbuild).1 []).1 h rfl ("Spare".toList, []) (by decide) rfl

end Registry

/-! ### Languages of scanners -/

namespace Scanner

variable {kind : Text} {scanners : List Scanner} {r : Registry Scanner} {u : SourceUnit}
  {s : Scanner}

theorem supports_iff (hr : Registry.Holds Press.scannerView scanners r)
    (hget : r.get? (some u.language) = some s) :
    s.supports u = true ↔ lower s.language = s.language := by
  have hlower : lower s.language = lower u.language := (hr.of_get?_eq_some hget).2
  rw [supports, beq_iff_eq, hlower]

theorem scan_of_not_isBlank (hblank : u.isBlank = false) :
    s.scan u = if s.supports u then (s.run u).map some else .ok none := by
  rw [scan, hblank, if_neg Bool.false_ne_true]
  rfl

/-- The registry has the scanner itself for units whose language is spelled as its own. -/
theorem get?_language (hr : Registry.Holds Press.scannerView scanners r) (hmem : s ∈ scanners)
    (hlanguage : s.language ≠ []) : r.get? (some s.language) = some s := by
  rw [Registry.get?_of_ne_nil hlanguage]
  exact hr.find?_eq_some_iff.2 ⟨hmem, rfl⟩

/-- A scanner takes the units that its registry hands to it exactly when its language is
written in lower case, and passes over all of them otherwise; so all scanners of a registry
take all units handed to them exactly when no language holds a capital letter. -/
theorem found_scanner_supports_iff
    (hbuild : Registry.build Press.scannerView kind scanners = .ok r) :
    (∀ u s, r.get? (some u.language) = some s →
        (s.supports u = true ↔ lower s.language = s.language)) ∧
      (∀ u s, u.isBlank = false → r.get? (some u.language) = some s →
        s.scan u = if lower s.language = s.language then (s.run u).map some else .ok none) ∧
      ((∀ u s, u.isBlank = false → r.get? (some u.language) = some s → s.supports u = true) ↔
        ∀ s ∈ scanners, lower s.language = s.language) := by
  obtain ⟨hr, -⟩ := Registry.holds_build hbuild
  refine ⟨fun u s hget => supports_iff hr hget, fun u s hblank hget => ?_, ?_, ?_⟩
  · simp only [scan_of_not_isBlank hblank, supports_iff hr hget]
  · intro hall s hmem
    by_cases hlanguage : s.language = []
    · rw [hlanguage, Text.lower_nil]
    · have hget := get?_language hr hmem hlanguage
      -- any unit that is not blank will do, in the spelling of the scanner itself
      let u : SourceUnit := ⟨[], [], ['x'], s.language⟩
      exact (supports_iff (u := u) hr hget).1 (hall u s rfl hget)
  · intro hall u s _ hget
    exact (supports_iff hr hget).2 (hall s (hr.of_get?_eq_some hget).1)

/-- The scanners of this library take all units that are handed to them. -/
example (data : Docstring.CharacterData) :
    ∀ s ∈ Press.allScanners data, lower s.language = s.language := by
  have hjava : lower Javadoc.language = Javadoc.language := by decide +kernel
  have hpython : lower Docstring.language = Docstring.language := by decide +kernel
  exact List.forall_mem_cons.2 ⟨hjava, List.forall_mem_singleton.2 hpython⟩

/-- The Python scanner without tables about characters. -/
def plainPython : Scanner := python ⟨fun _ => none, id⟩

/-- A scanner whose language is written with a capital letter. -/
def capital : Scanner :=
  ⟨"CapitalScanner".toList, "Java".toList, fun u => .ok ⟨u.name, u.path, u.language, []⟩⟩

theorem found_scanner_supports_iff_capital :
    ∃ r : Registry Scanner,
      Registry.build Press.scannerView "scanner".toList [capital, plainPython] = .ok r ∧
        r.get? (some "java".toList) = some capital ∧
        capital.scan ⟨"A.java".toList, "A.java".toList, "class A".toList, "java".toList⟩ =
          .ok none := by
  have hbuild : Registry.build Press.scannerView "scanner".toList [capital, plainPython] =
      .ok ⟨"scanner".toList, [("java".toList, capital), ("python".toList, plainPython)]⟩ := by rfl
  refine ⟨_, hbuild, rfl, ?_⟩
  have hscan := (found_scanner_supports_iff hbuild).2.1
    ⟨"A.java".toList, "A.java".toList, "class A".toList, "java".toList⟩ capital (by decide) rfl
  rw [hscan, if_neg (by decide)]

end Scanner
end DocPress
