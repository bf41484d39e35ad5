import DocPress.Comment.Basic
import DocPress.Proofs.Text.Words

/-!
# Tag markers

A marker is an at sign at the start of a text or after a blank, followed by a
name that fills the rest of the word.  `IsMarker` says this of a place in a text
without reference to how texts are cut, `markers` lists all such places from left
to right (`mem_markers`, `markers_pairwise`), and `cut` takes a text apart at
exactly these places (`cut_eq`).
-/

namespace DocPress.Comment

open Text

/-- A text that is empty or begins with a blank: a word may end before it. -/
def StartsBlank (t : Text) : Prop := ∀ c ∈ t.head?, isBlank c = true

/-- A text that is empty or ends with a blank: a word may start after it. -/
def EndsBlank (t : Text) : Prop := ∀ c ∈ t.getLast?, isBlank c = true

/-- A marker of the given name stands at the given place of a text.  As the name
ends at a blank or at the end of the text, it is all of the run of letters after
the sign. -/
def IsMarker (t : Text) (i : Nat) (name : Text) : Prop :=
  ∃ before after, t = before ++ '@' :: (name ++ after) ∧ before.length = i ∧ EndsBlank before ∧
    name ≠ [] ∧ (∀ c ∈ name, isWordChar c = true) ∧ StartsBlank after

/-- Whether a word may start at a place. -/
def isFresh (t : Text) (i : Nat) : Bool := i == 0 || t[i - 1]?.any isBlank

/-- The marker at a place, if one stands there. -/
def markerAt? (t : Text) (i : Nat) : Option (Nat × Text) :=
  if isFresh t i then (markerName? (t.drop i)).map (i, ·) else none

/-- All markers of a text from a place on. -/
def markersFrom (t : Text) (i : Nat) : List (Nat × Text) :=
  (List.range' i (t.length - i)).filterMap (markerAt? t)

/-- All markers of a text with their places. -/
def markers (t : Text) : List (Nat × Text) := markersFrom t 0

/-! ### Words and blanks -/

theorem startsBlank_nil : StartsBlank [] := by
  simp [StartsBlank]

theorem startsBlank_cons {c : Char} {t : Text} : StartsBlank (c :: t) ↔ isBlank c = true := by
  simp [StartsBlank]

theorem endsBlank_nil : EndsBlank [] := by
  simp [EndsBlank]

theorem endsBlank_concat {c : Char} {t : Text} : EndsBlank (t ++ [c]) ↔ isBlank c = true := by
  simp [EndsBlank]

theorem startsBlank_append {a b : Text} (h : a ≠ []) : StartsBlank (a ++ b) ↔ StartsBlank a := by
  rw [StartsBlank, StartsBlank, List.head?_append_of_ne_nil _ h]

theorem endsBlank_append {a b : Text} (h : b ≠ []) : EndsBlank (a ++ b) ↔ EndsBlank b := by
  rw [EndsBlank, EndsBlank, List.getLast?_append_of_ne_nil _ h]

theorem EndsBlank.of_append {a b : Text} (h : EndsBlank (a ++ b)) : EndsBlank b := by
  by_cases hnil : b = []
  · exact hnil ▸ endsBlank_nil
  · exact (endsBlank_append hnil).1 h

theorem startsBlank_of_areBlanks {t : Text} (h : AreBlanks t) : StartsBlank t := fun c hc =>
  h c (List.mem_of_mem_head? hc)

theorem endsBlank_of_areBlanks {t : Text} (h : AreBlanks t) : EndsBlank t := fun c hc =>
  h c (List.mem_of_mem_getLast? hc)

theorem not_endsBlank_of_isWordChar {name : Text} (hne : name ≠ [])
    (hname : ∀ c ∈ name, isWordChar c = true) : ¬ EndsBlank name := by
  intro hends
  have hlast := hends _ (List.getLast?_eq_some_getLast hne)
  rw [isBlank_of_isWordChar (hname _ (List.getLast_mem hne))] at hlast
  exact absurd hlast (by decide)

/-! ### Markers -/

theorem markerName?_eq_some_iff {t name : Text} :
    markerName? t = some name ↔
      ∃ after, t = '@' :: (name ++ after) ∧ name ≠ [] ∧ (∀ c ∈ name, isWordChar c = true) ∧
        StartsBlank after := by
  constructor
  · intro h
    rw [markerName?.eq_def] at h
    split at h
    · next rest =>
        have hsplit : rest = rest.takeWhile isWordChar ++ rest.dropWhile isWordChar :=
          List.takeWhile_append_dropWhile.symm
        have hword : ∀ c ∈ rest.takeWhile isWordChar, isWordChar c = true := fun c hc =>
          List.mem_takeWhile_imp hc
        dsimp only at h
        split at h
        · cases h
        · next hend hne =>
            obtain rfl := Option.some.inj h
            exact ⟨[], by rw [← hend, ← hsplit], hne, hword, startsBlank_nil⟩
        · next c tail hend hne =>
            split at h
            · next hblank =>
                obtain rfl := Option.some.inj h
                exact ⟨c :: tail, by rw [← hend, ← hsplit], hne, hword, startsBlank_cons.2 hblank⟩
            · cases h
    · cases h
  · rintro ⟨after, rfl, hne, hname, hafter⟩
    -- the name is all of the run, because what follows it is no word character
    obtain ⟨htake, hdrop⟩ := takeWhile_run hname fun c hc => not_isWordChar_of_isBlank (hafter c hc)
    rw [markerName?, htake, hdrop]
    cases name with
    | nil => exact absurd rfl hne
    | cons x name =>
        cases after with
        | nil => rfl
        | cons c after => exact if_pos (startsBlank_cons.1 hafter)

theorem markerName?_eq_none {c : Char} (t : Text) (h : c ≠ '@') : markerName? (c :: t) = none := by
  cases hname : markerName? (c :: t) with
  | none => rfl
  | some name =>
      obtain ⟨after, heq, -⟩ := markerName?_eq_some_iff.1 hname
      exact absurd (List.cons.inj heq).1 h

/-- A word may start at a place if the text before it is empty or ends with a blank. -/
theorem isFresh_iff {t : Text} {i : Nat} (hi : i ≤ t.length) :
    isFresh t i = true ↔ EndsBlank (t.take i) := by
  cases i with
  | zero => simp [isFresh, endsBlank_nil]
  | succ i =>
      have hlt : i < t.length := hi
      rw [List.take_succ_eq_append_getElem hlt, endsBlank_concat]
      simp [isFresh, List.getElem?_eq_getElem hlt]

theorem markerAt?_eq_some_iff {t : Text} {i : Nat} (hi : i ≤ t.length) {j : Nat} {name : Text} :
    markerAt? t i = some (j, name) ↔ j = i ∧ IsMarker t i name := by
  constructor
  · intro h
    rw [markerAt?] at h
    split at h
    · next hfresh =>
        obtain ⟨n, hn, heq⟩ := Option.map_eq_some_iff.1 h
        obtain ⟨rfl, rfl⟩ := Prod.mk.inj heq
        obtain ⟨after, hdrop, hne, hname, hafter⟩ := markerName?_eq_some_iff.1 hn
        refine ⟨rfl, t.take i, after, ?_, ?_, (isFresh_iff hi).1 hfresh, hne, hname, hafter⟩
        · rw [← hdrop, List.take_append_drop]
        · rw [List.length_take, Nat.min_eq_left hi]
    · cases h
  · rintro ⟨rfl, before, after, rfl, rfl, hbefore, hne, hname, hafter⟩
    have hfresh : isFresh (before ++ '@' :: (name ++ after)) before.length = true := by
      rw [isFresh_iff hi, List.take_left']
      · exact hbefore
      · rfl
    rw [markerAt?, if_pos hfresh, List.drop_left' rfl,
      markerName?_eq_some_iff.2 ⟨after, rfl, hne, hname, hafter⟩]
    rfl

theorem IsMarker.lt_length {t : Text} {i : Nat} {name : Text} (h : IsMarker t i name) :
    i < t.length := by
  obtain ⟨before, after, rfl, rfl, -⟩ := h
  simp

/-- After the name of a marker no word starts. -/
theorem IsMarker.after_name {t : Text} {i : Nat} {name : Text} (h : IsMarker t i name) :
    i + 1 + name.length ≤ t.length ∧ name <+: t.drop (i + 1) ∧
      (∀ c ∈ name, isWordChar c = true) ∧ isFresh t (i + 1 + name.length) = false := by
  obtain ⟨before, after, rfl, rfl, -, hne, hname, -⟩ := h
  have hlength : before.length + 1 + name.length ≤ (before ++ '@' :: (name ++ after)).length := by
    simp only [List.length_append, List.length_cons]
    omega
  refine ⟨hlength, ⟨after, ?_⟩, hname, ?_⟩
  · simp
  · rw [← Bool.not_eq_true, isFresh_iff hlength]
    intro hends
    have htake : (before ++ '@' :: (name ++ after)).take (before.length + 1 + name.length) =
        before ++ '@' :: name := by
      rw [show before ++ '@' :: (name ++ after) = (before ++ '@' :: name) ++ after by simp]
      exact List.take_left' (by simp; omega)
    rw [htake, ← List.singleton_append, ← List.append_assoc, endsBlank_append hne] at hends
    exact not_endsBlank_of_isWordChar hne hname hends

theorem mem_markers {t : Text} {i : Nat} {name : Text} :
    (i, name) ∈ markers t ↔ IsMarker t i name := by
  rw [markers, markersFrom, List.mem_filterMap]
  constructor
  · rintro ⟨j, hj, h⟩
    have hle : j ≤ t.length := by
      rw [List.mem_range'_1] at hj
      omega
    obtain ⟨rfl, hmarker⟩ := (markerAt?_eq_some_iff hle).1 h
    exact hmarker
  · intro h
    have hlt := h.lt_length
    refine ⟨i, ?_, (markerAt?_eq_some_iff (Nat.le_of_lt hlt)).2 ⟨rfl, h⟩⟩
    rw [List.mem_range'_1]
    omega

theorem markers_pairwise (t : Text) : (markers t).Pairwise fun a b => a.1 < b.1 := by
  have hat : ∀ i p, markerAt? t i = some p → p.1 = i := by
    intro i p h
    rw [markerAt?] at h
    split at h
    · obtain ⟨name, -, rfl⟩ := Option.map_eq_some_iff.1 h
      rfl
    · cases h
  refine List.Pairwise.filterMap (markerAt? t) ?_ List.pairwise_lt_range'
  intro i j hij p hp q hq
  rw [hat i p hp, hat j q hq]
  exact hij

/-! ### Cutting at the markers -/

/-- The part of a text from one place to another. -/
def slice (t : Text) (i j : Nat) : Text := (t.take j).drop i

/-- The place where the first of some markers stands, or the end of the text. -/
def nextPlace (t : Text) (ms : List (Nat × Text)) : Nat := (ms.head?.map Prod.fst).getD t.length

/-- Every marker's name with the text from its end to the next marker. -/
def markedParts (t : Text) : List (Nat × Text) → List (Text × Text)
  | [] => []
  | (i, name) :: more =>
      (name, slice t (i + 1 + name.length) (nextPlace t more)) :: markedParts t more

theorem markersFrom_eq_cons {t : Text} {i : Nat} (hi : i < t.length) :
    markersFrom t i = (markerAt? t i).toList ++ markersFrom t (i + 1) := by
  have hlength : t.length - i = (t.length - (i + 1)) + 1 := by omega
  rw [markersFrom, hlength, List.range'_succ, List.filterMap_cons]
  cases markerAt? t i <;> rfl

theorem markersFrom_length (t : Text) : markersFrom t t.length = [] := by
  simp [markersFrom]

/-- The letters of a name hold no marker. -/
theorem markersFrom_skip {t : Text} {i : Nat} {name : Text}
    (hname : ∀ c ∈ name, isWordChar c = true) (hi : i + name.length ≤ t.length)
    (h : name <+: t.drop i) : markersFrom t i = markersFrom t (i + name.length) := by
  -- on the name: none of its letters is an at sign
  induction name generalizing i with
  | nil => rfl
  | cons c name ih =>
      obtain ⟨after, hafter⟩ := h
      have hlt : i < t.length := by
        simp only [List.length_cons] at hi
        omega
      have hdrop : t.drop (i + 1) = name ++ after := by
        rw [← List.drop_drop, ← hafter]
        rfl
      have hnone : markerAt? t i = none := by
        rw [markerAt?, ← hafter]
        split
        · rw [List.cons_append, markerName?_eq_none, Option.map_none]
          rintro rfl
          exact absurd (hname '@' List.mem_cons_self) (by decide)
        · rfl
      rw [markersFrom_eq_cons hlt, hnone, Option.toList_none, List.nil_append,
        ih (fun c hc => hname c (List.mem_cons_of_mem _ hc)) (by simp at hi; omega)
          ⟨after, hdrop.symm⟩]
      congr 1
      simp
      omega

theorem nextPlace_le {t : Text} {i : Nat} (hi : i ≤ t.length) :
    i ≤ nextPlace t (markersFrom t i) := by
  cases hms : markersFrom t i with
  | nil => exact hi
  | cons m more =>
      have hmem : m ∈ markersFrom t i := by simp [hms]
      obtain ⟨j, hj, hat⟩ := List.mem_filterMap.1 hmem
      rw [List.mem_range'_1] at hj
      obtain ⟨heq, -⟩ := (markerAt?_eq_some_iff (by omega)).1 hat
      simp only [nextPlace, List.head?_cons, Option.map_some, Option.getD_some]
      omega

theorem cut_nil (fresh : Bool) : cut fresh [] = ([], []) := by
  rw [cut]

theorem cut_marker {c : Char} {rest name : Text} (h : markerName? (c :: rest) = some name) :
    cut true (c :: rest) = ([], (name, (cut false (rest.drop name.length)).1) ::
      (cut false (rest.drop name.length)).2) := by
  rw [cut]
  simp only [if_true, h]

theorem cut_char {fresh : Bool} {c : Char} {rest : Text}
    (h : (if fresh then markerName? (c :: rest) else none) = none) :
    cut fresh (c :: rest) = (c :: (cut (isBlank c) rest).1, (cut (isBlank c) rest).2) := by
  rw [cut]
  simp only [h]

/-- A fact about how texts are cut follows from what happens at the end of the
text, at a marker and at any other character. -/
theorem cut_induction {motive : Bool → Text → Prop} (nil : ∀ fresh, motive fresh [])
    (marker : ∀ c rest name, markerName? (c :: rest) = some name →
      motive false (rest.drop name.length) → motive true (c :: rest))
    (char : ∀ fresh c rest, (if fresh then markerName? (c :: rest) else none) = none →
      motive (isBlank c) rest → motive fresh (c :: rest))
    (fresh : Bool) (t : Text) : motive fresh t := by
  induction fresh, t using cut.induct with
  | case1 fresh => exact nil fresh
  | case2 fresh c rest name h value more _ ih =>
      cases fresh with
      | false => simp at h
      | true => exact marker c rest name (by simpa using h) ih
  | case3 fresh c rest h value more _ ih => exact char fresh c rest (by simpa using h) ih

theorem slice_eq_cons {t : Text} {i j : Nat} (hi : i < t.length) (hj : i < j) :
    slice t i j = t[i] :: slice t (i + 1) j := by
  have hlength : i < (t.take j).length := by
    rw [List.length_take]
    omega
  rw [slice, List.drop_eq_getElem_cons hlength, List.getElem_take, slice]

/-- A text is cut at its markers and nowhere else. -/
theorem cut_eq {t : Text} {i : Nat} (hi : i ≤ t.length) :
    cut (isFresh t i) (t.drop i) =
      (slice t i (nextPlace t (markersFrom t i)), markedParts t (markersFrom t i)) := by
  -- on the length of what is left; a marker skips its name, any other character only itself
  induction hn : t.length - i using Nat.strongRecOn generalizing i with
  | _ n ih =>
      rcases Nat.eq_or_lt_of_le hi with rfl | hlt
      · rw [List.drop_length, cut_nil, markersFrom_length]
        simp [slice, markedParts, nextPlace]
      · have hfresh : isFresh t (i + 1) = isBlank t[i] := by
          simp [isFresh, List.getElem?_eq_getElem hlt]
        rw [List.drop_eq_getElem_cons hlt, markersFrom_eq_cons hlt]
        cases hat : markerAt? t i with
        | none =>
            have hhere : (if isFresh t i then markerName? (t[i] :: t.drop (i + 1)) else none) =
                none := by
              rw [markerAt?, List.drop_eq_getElem_cons hlt] at hat
              split at hat
              · next h => rw [if_pos h]; exact Option.map_eq_none_iff.1 hat
              · next h => rw [if_neg h]
            have hrest := ih (t.length - (i + 1)) (by omega) hlt rfl
            have hplace := nextPlace_le (t := t) (i := i + 1) hlt
            rw [hfresh] at hrest
            rw [cut_char hhere, hrest, Option.toList_none, List.nil_append,
              slice_eq_cons hlt (by omega)]
        | some m =>
            obtain ⟨j, name⟩ := m
            have hmarker := (markerAt?_eq_some_iff hi).1 hat
            obtain ⟨rfl, hmarker⟩ := hmarker
            obtain ⟨hlength, hdrop, hword, hstale⟩ := hmarker.after_name
            have hhere : isFresh t j = true ∧ markerName? (t[j] :: t.drop (j + 1)) = some name := by
              rw [markerAt?, List.drop_eq_getElem_cons hlt] at hat
              split at hat
              · next h =>
                  obtain ⟨n, hn, heq⟩ := Option.map_eq_some_iff.1 hat
                  obtain ⟨-, rfl⟩ := Prod.mk.inj heq
                  exact ⟨h, hn⟩
              · cases hat
            have hrest := ih (t.length - (j + 1 + name.length)) (by omega) hlength rfl
            rw [hstale] at hrest
            rw [hhere.1, cut_marker hhere.2, List.drop_drop, hrest, Option.toList_some,
              List.singleton_append, markersFrom_skip hword hlength hdrop]
            simp [nextPlace, slice, markedParts]

end DocPress.Comment
