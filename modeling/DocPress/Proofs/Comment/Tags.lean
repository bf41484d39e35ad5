import DocPress.Comment.Basic
import Mathlib.Data.List.Induction

/-!
# Values grouped by name

Marked values are collected one by one.  What results does not depend on how they
are collected: the names in the order of their first appearance, each with all of
its values in order (`ofPairs_eq_grouped`).
-/

namespace DocPress.Comment.Tags

/-- The values recorded under a name, in order. -/
def valuesOf (pairs : List (Text × Text)) (name : Text) : List Text :=
  (pairs.filter fun p => p.1 == name).map Prod.snd

/-- Names in the order of their first appearance, each with its values in order. -/
def grouped (pairs : List (Text × Text)) : Tags :=
  (pairs.map Prod.fst).eraseDups.map fun name => (name, valuesOf pairs name)

theorem nodup_eraseDups (names : List Text) : names.eraseDups.Nodup := by
  cases names with
  | nil => simp
  | cons name more =>
      rw [List.eraseDups_cons, List.nodup_cons]
      constructor
      · simp [List.mem_eraseDups]
      · exact nodup_eraseDups _
termination_by names.length
decreasing_by
  have hle := List.length_filter_le (fun b => !b == name) more
  rw [List.length_cons]
  omega

/-- Every value of a group was marked with its name. -/
theorem exists_of_mem_grouped {pairs : List (Text × Text)} {entry : Text × List Text} {value : Text}
    (hentry : entry ∈ grouped pairs) (hvalue : value ∈ entry.2) : ∃ p ∈ pairs, p.2 = value := by
  obtain ⟨name, -, rfl⟩ := List.mem_map.1 hentry
  obtain ⟨p, hp, rfl⟩ := List.mem_map.1 hvalue
  exact ⟨p, (List.mem_filter.1 hp).1, rfl⟩

theorem add_of_mem {keys : List Text} (values : Text → List Text) {name : Text} (value : Text)
    (hnodup : keys.Nodup) (hmem : name ∈ keys) :
    add (keys.map fun key => (key, values key)) name value =
      keys.map fun key => (key, if key = name then values key ++ [value] else values key) := by
  induction keys with
  | nil => cases hmem
  | cons key more ih =>
      obtain ⟨hnot, hmore⟩ := List.nodup_cons.1 hnodup
      rw [List.map_cons, List.map_cons, add]
      by_cases heq : key = name
      · subst heq
        -- the name occurs nowhere else, so the other entries stay as they are
        have hrest : (more.map fun k => (k, if k = key then values k ++ [value] else values k)) =
            more.map fun k => (k, values k) := by
          refine List.map_congr_left fun k hk => ?_
          rw [if_neg]
          rintro rfl
          exact hnot hk
        rw [if_pos rfl, if_pos rfl, hrest]
      · have hin : name ∈ more := (List.mem_cons.1 hmem).resolve_left fun h => heq h.symm
        rw [if_neg heq, if_neg heq, ih hmore hin]

theorem add_of_notMem {keys : List Text} (values : Text → List Text) {name : Text} (value : Text)
    (hnot : name ∉ keys) :
    add (keys.map fun key => (key, values key)) name value =
      (keys.map fun key => (key, values key)) ++ [(name, [value])] := by
  induction keys with
  | nil => rfl
  | cons key more ih =>
      have hne : key ≠ name := fun h => hnot (h ▸ List.mem_cons_self)
      rw [List.map_cons, add, if_neg hne, ih fun h => hnot (List.mem_cons_of_mem _ h),
        List.cons_append]

theorem valuesOf_append (pairs : List (Text × Text)) (name value key : Text) :
    valuesOf (pairs ++ [(name, value)]) key =
      if key = name then valuesOf pairs key ++ [value] else valuesOf pairs key := by
  by_cases h : key = name
  · subst h
    simp [valuesOf]
  · have hne : ¬ name = key := fun heq => h heq.symm
    simp [valuesOf, h, hne]

/-- One more value goes to the end of its group, or starts a new group. -/
theorem add_grouped (pairs : List (Text × Text)) (name value : Text) :
    add (grouped pairs) name value = grouped (pairs ++ [(name, value)]) := by
  have hkeys : ((pairs ++ [(name, value)]).map Prod.fst).eraseDups =
      (pairs.map Prod.fst).eraseDups ++ ([name].removeAll (pairs.map Prod.fst)).eraseDups := by
    rw [List.map_append, List.eraseDups_append]
    rfl
  rw [grouped, grouped, hkeys]
  simp only [valuesOf_append]
  by_cases hmem : name ∈ pairs.map Prod.fst
  · have hnone : [name].removeAll (pairs.map Prod.fst) = [] := by
      simpa [List.removeAll] using hmem
    rw [add_of_mem _ value (nodup_eraseDups _) (List.mem_eraseDups.2 hmem), hnone,
      List.eraseDups_nil, List.append_nil]
  · have hnew : [name].removeAll (pairs.map Prod.fst) = [name] := by
      simpa [List.removeAll] using hmem
    have hold : ((pairs.map Prod.fst).eraseDups.map fun key =>
        (key, if key = name then valuesOf pairs key ++ [value] else valuesOf pairs key)) =
        (pairs.map Prod.fst).eraseDups.map fun key => (key, valuesOf pairs key) := by
      refine List.map_congr_left fun key hkey => ?_
      rw [if_neg]
      rintro rfl
      exact hmem (List.mem_eraseDups.1 hkey)
    have hempty : valuesOf pairs name = [] := by
      rw [valuesOf, List.map_eq_nil_iff, List.filter_eq_nil_iff]
      intro p hp heq
      exact hmem (List.mem_map.2 ⟨p, hp, by simpa using heq⟩)
    rw [add_of_notMem _ value (fun h => hmem (List.mem_eraseDups.1 h)), hnew, List.map_append, hold,
      List.eraseDups_cons, List.filter_nil, List.eraseDups_nil, List.map_singleton, if_pos rfl,
      hempty, List.nil_append]

theorem ofPairs_append (pairs : List (Text × Text)) (p : Text × Text) :
    ofPairs (pairs ++ [p]) = add (ofPairs pairs) p.1 p.2 := by
  rw [ofPairs, List.foldl_append, ofPairs]
  rfl

/-- Collecting values one by one groups them by name. -/
theorem ofPairs_eq_grouped (pairs : List (Text × Text)) : ofPairs pairs = grouped pairs := by
  induction pairs using List.reverseRecOn with
  | nil => rfl
  | append_singleton pairs p ih => rw [ofPairs_append, ih, add_grouped]

theorem pairs_add (tags : Tags) (name value : Text) :
    (tags.add name value).pairs.Perm (tags.pairs ++ [(name, value)]) := by
  induction tags with
  | nil => exact .refl _
  | cons entry more ih =>
      obtain ⟨key, values⟩ := entry
      rw [add]
      split
      · next heq =>
          -- the value joins a group that other groups may follow
          have hlast : ([(name, value)] ++ pairs more).Perm (pairs more ++ [(name, value)]) :=
            List.perm_append_comm
          have hgroup := hlast.append_left (values.map fun v => (name, v))
          simpa [pairs, heq] using hgroup
      · have hgroup := ih.append_left (values.map fun v => (key, v))
        simpa [pairs] using hgroup

/-- No value is dropped and none is recorded twice. -/
theorem pairs_ofPairs (marked : List (Text × Text)) : (ofPairs marked).pairs.Perm marked := by
  induction marked using List.reverseRecOn with
  | nil => exact .refl _
  | append_singleton marked p ih =>
      rw [ofPairs_append]
      exact (pairs_add _ _ _).trans (ih.append_right [p])

/-- The values under some of the names are those that were marked with them. -/
theorem pairs_filter (tags : Tags) (keep : Text → Bool) :
    pairs (tags.filter fun entry => keep entry.1) = tags.pairs.filter fun p => keep p.1 := by
  induction tags with
  | nil => rfl
  | cons entry more ih =>
      change _ = ((entry.2.map fun v => (entry.1, v)) ++ pairs more).filter fun p => keep p.1
      rw [List.filter_append, ← ih]
      cases hkeep : keep entry.1 with
      | false =>
          have hnone : (entry.2.map fun v => (entry.1, v)).filter (fun p => keep p.1) = [] := by
            simp [hkeep]
          rw [hnone, List.filter_cons_of_neg (by simp [hkeep]), List.nil_append]
      | true =>
          have hall : (entry.2.map fun v => (entry.1, v)).filter (fun p => keep p.1) =
              entry.2.map fun v => (entry.1, v) := by
            rw [List.filter_eq_self]
            simp [hkeep]
          rw [hall, List.filter_cons_of_pos (by simp [hkeep])]
          rfl

end DocPress.Comment.Tags
