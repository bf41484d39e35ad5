import DocPress.Proofs.Press.Registry
import DocPress.Proofs.Storage.PathOrder

/-!
# Building registries

A registry can be built from a batch of handlers exactly if their identifiers are distinct
in lower case; otherwise the refusal names the first handler that repeats an earlier one,
and that earlier one (`Holds.namesRepeat`).

What was built shows nothing of the order in which the handlers came: identifiers are
listed in code-point order, and handlers are found by their identifiers alone, so another
order of the same handlers gives a registry with the same answers (`Holds.sameAnswers`).
-/

namespace DocPress.Registry

open Text (lower)

variable {α : Type} {view : HandlerView α} {kind : Text} {handlers others : List α}
  {r s : Registry α}

/-- The identifiers of some handlers in lower case. -/
def keys (view : HandlerView α) (handlers : List α) : List Text :=
  handlers.map fun h => lower (view.identifier h)

/-- A refusal names the first handler whose identifier repeats that of an earlier one, and
the earlier one; no two handlers before it have the same identifier. -/
def NamesRepeat (view : HandlerView α) (kind : Text) (handlers : List α) (e : RegistryError) :
    Prop :=
  ∃ before g h after, handlers = before ++ h :: after ∧ (keys view before).Nodup ∧ g ∈ before ∧
    lower (view.identifier g) = lower (view.identifier h) ∧
    e = .duplicate kind (lower (view.identifier h)) (view.title g) (view.title h)

/-- Two registries that answer every question alike.  Going through a registry gives its
identifiers one after the other. -/
structure SameAnswers (r s : Registry α) : Prop where
  get : ∀ identifier, r.get? identifier = s.get? identifier
  require : ∀ identifier, r.require identifier = s.require identifier
  contains : ∀ identifier, r.contains identifier = s.contains identifier
  identifiers : r.identifiers = s.identifiers
  size : r.size = s.size

/-! ### Refusals -/

theorem add_eq_error {h : α} {e : RegistryError} (hadd : add view r h = .error e) :
    ∃ g, r.find? (lower (view.identifier h)) = some g ∧
      e = .duplicate r.kind (lower (view.identifier h)) (view.title g) (view.title h) := by
  rw [add] at hadd
  split at hadd
  · next g hfound =>
      cases hadd
      exact ⟨g, hfound, rfl⟩
  · cases hadd

/-- A batch is refused at the first handler whose identifier is held already. -/
theorem Holds.namesRepeat {more : List α} {e : RegistryError} (hr : Holds view handlers r)
    (hfold : more.foldlM (Registry.add view) r = .error e) :
    NamesRepeat view r.kind (handlers ++ more) e := by
  induction more generalizing r handlers with
  | nil => cases hfold
  | cons h more ih =>
      rw [List.foldlM_cons] at hfold
      cases hadd : Registry.add view r h with
      | error e' =>
          rw [hadd] at hfold
          cases hfold
          obtain ⟨g, hfound, rfl⟩ := add_eq_error hadd
          obtain ⟨hmem, hkey⟩ := hr.find?_eq_some_iff.1 hfound
          exact ⟨handlers, g, h, more, rfl, hr.nodup, hmem, hkey, rfl⟩
      | ok middle =>
          rw [hadd] at hfold
          have hmiddle : middle.kind = r.kind := by rw [(add_eq_ok hadd).2]
          have hrest := ih (hr.add hadd) hfold
          rwa [hmiddle, List.append_assoc] at hrest

theorem namesRepeat_of_build {e : RegistryError} (hbuild : build view kind handlers = .error e) :
    NamesRepeat view kind handlers e := by
  have hempty : Holds view [] (⟨kind, []⟩ : Registry α) := ⟨rfl, List.nodup_nil⟩
  exact hempty.namesRepeat hbuild

theorem NamesRepeat.not_nodup {e : RegistryError} (h : NamesRepeat view kind handlers e) :
    ¬ (keys view handlers).Nodup := by
  obtain ⟨before, g, h, after, rfl, -, hmem, hkey, -⟩ := h
  rw [keys, List.map_append, List.map_cons, List.nodup_append']
  rintro ⟨-, -, hdisjoint⟩
  exact hdisjoint (List.mem_map_of_mem hmem) (hkey ▸ List.mem_cons_self)

theorem exists_build_iff :
    (∃ r, build view kind handlers = .ok r) ↔ (keys view handlers).Nodup := by
  constructor
  · rintro ⟨r, hbuild⟩
    exact (holds_build hbuild).1.nodup
  · intro hnodup
    cases hbuild : build view kind handlers with
    | ok r => exact ⟨r, rfl⟩
    | error e => exact absurd hnodup (namesRepeat_of_build hbuild).not_nodup

/-! ### Identifiers in order -/

theorem Holds.identifiers_perm (hr : Holds view handlers r) :
    r.identifiers.Perm (keys view handlers) := by
  have hentries : r.handlers.map Prod.fst = keys view handlers := by
    rw [hr.entries, List.map_map]
    rfl
  rw [identifiers, hentries]
  exact List.mergeSort_perm _ _

theorem Holds.identifiers_pairwise (hr : Holds view handlers r) :
    r.identifiers.Pairwise (· < ·) := by
  have hle : ∀ a b : Text, Text.le a b = true ↔ ¬ b < a := fun a b => le_eq_true_iff
  have hsorted : r.identifiers.Pairwise fun a b => Text.le a b = true :=
    List.pairwise_mergeSort (le_trans_of_iff hle) (le_total_of_iff hle) _
  have hnodup : r.identifiers.Nodup := hr.identifiers_perm.nodup_iff.2 hr.nodup
  refine (hsorted.and hnodup).imp fun {a b} hab => ?_
  exact lt_of_le_of_ne (not_lt.1 (le_eq_true_iff.1 hab.1)) hab.2

/-! ### Another order of the handlers -/

theorem Holds.find?_eq_of_perm (hr : Holds view handlers r) (hs : Holds view others s)
    (hperm : handlers.Perm others) (key : Text) : r.find? key = s.find? key := by
  refine Option.ext fun h => ?_
  rw [hr.find?_eq_some_iff, hs.find?_eq_some_iff, hperm.mem_iff]

/-- Registries of the same kind that hold the same handlers give the same answers. -/
theorem Holds.sameAnswers (hr : Holds view handlers r) (hs : Holds view others s)
    (hkind : r.kind = s.kind) (hperm : handlers.Perm others) : SameAnswers r s := by
  have hget : ∀ identifier, r.get? identifier = s.get? identifier := by
    rintro (_ | _ | ⟨c, t⟩)
    · rfl
    · rfl
    · exact hr.find?_eq_of_perm hs hperm _
  have hidentifiers : r.identifiers = s.identifiers := by
    have hsame : r.identifiers.Perm s.identifiers :=
      (hr.identifiers_perm.trans (hperm.map _)).trans hs.identifiers_perm.symm
    exact hsame.eq_of_pairwise (fun a b _ _ hab hba => absurd hba (lt_asymm hab))
      hr.identifiers_pairwise hs.identifiers_pairwise
  refine ⟨hget, fun identifier => ?_, fun identifier => ?_, hidentifiers, ?_⟩
  · rw [require, require, hget, hkind, hidentifiers]
  · rw [contains, contains, hr.find?_eq_of_perm hs hperm]
  · rw [size, size, hr.entries, hs.entries, List.length_map, List.length_map, hperm.length_eq]

/-- A registry is built exactly if the identifiers of the handlers are distinct in lower
case, and a refusal names the first repetition.  A registry lists one identifier for each
handler, in strictly increasing order, and the same handlers in another order make a
registry with the same answers. -/
theorem build_order_free (view : HandlerView α) (kind : Text) (handlers : List α) :
    ((∃ r, build view kind handlers = .ok r) ↔ (keys view handlers).Nodup) ∧
      (∀ e, build view kind handlers = .error e → NamesRepeat view kind handlers e) ∧
      ∀ r, build view kind handlers = .ok r →
        r.identifiers.Pairwise (· < ·) ∧ r.identifiers.Perm (keys view handlers) ∧
          r.size = handlers.length ∧
          ∀ others, handlers.Perm others →
            ∃ s, build view kind others = .ok s ∧ SameAnswers r s := by
  refine ⟨exists_build_iff, fun e => namesRepeat_of_build, fun r hbuild => ?_⟩
  obtain ⟨hr, hkind⟩ := holds_build hbuild
  refine ⟨hr.identifiers_pairwise, hr.identifiers_perm, ?_, fun others hperm => ?_⟩
  · rw [size, hr.entries, List.length_map]
  · have hnodup : (keys view others).Nodup := (hperm.map _).nodup_iff.1 hr.nodup
    obtain ⟨s, hbuildOthers⟩ : ∃ s, build view kind others = .ok s := exists_build_iff.2 hnodup
    obtain ⟨hs, hkindOthers⟩ := holds_build hbuildOthers
    exact ⟨s, hbuildOthers, hr.sameAnswers hs (hkind.trans hkindOthers.symm) hperm⟩

end DocPress.Registry
