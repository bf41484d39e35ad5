import DocPress.Proofs.Comment.Marker
import DocPress.Proofs.Comment.Normal
import DocPress.Proofs.Comment.Tags

/-!
# Comments as segmented texts

Reading a comment is the exact segmentation of its normal form at the tag markers
(`parse_segmentation`): the description is what stands before the first marker,
the value of each marker is what stands between its name and the next one, no
visible character is lost, and no part holds a further marker.

That no part holds a marker is not a matter of course, because the parts are
trimmed.  Trimming cannot make one: a value begins after a blank anyway, and
before the next marker stands a blank as well (`trim_head_not_isMarker`).
-/

namespace DocPress.Comment

open Text

/-- Every marker's name with its trimmed value. -/
def markedValues (t : Text) (ms : List (Nat × Text)) : List (Text × Text) :=
  (markedParts t ms).map fun p => (p.1, trim p.2)

/-- A comment that was read is the segmentation of a text at its markers. -/
structure Segmentation (t : Text) (ms : List (Nat × Text)) (parsed : Parsed) : Prop where
  /-- The places are those of the markers, all of them and in order. -/
  complete : ∀ i name, (i, name) ∈ ms ↔ IsMarker t i name
  ordered : ms.Pairwise fun a b => a.1 < b.1
  /-- The description stands before the first marker. -/
  description : parsed.description = trim (slice t 0 (nextPlace t ms))
  unmarked : ms = [] → parsed.description = t
  /-- Every value stands between the name of its marker and the next marker. -/
  tags : parsed.tags = Tags.grouped (markedValues t ms)
  count : parsed.tags.pairs.length = ms.length
  /-- No visible character is lost or doubled. -/
  kept : visible t = visible (parsed.description ++
    (markedValues t ms).flatMap fun p => '@' :: (p.1 ++ p.2))
  /-- No part, read on its own, holds a marker. -/
  description_whole : ∀ i name, ¬ IsMarker parsed.description i name
  values_whole : ∀ entry ∈ parsed.tags, ∀ v ∈ entry.2, ∀ i name, ¬ IsMarker v i name

/-! ### What cutting keeps -/

/-- The parts of a text, put together again. -/
def rejoined (parts : Text × List (Text × Text)) : Text :=
  parts.1 ++ parts.2.flatMap fun p => '@' :: (p.1 ++ p.2)

theorem rejoined_cut (fresh : Bool) (t : Text) : rejoined (cut fresh t) = t := by
  induction fresh, t using cut_induction with
  | nil fresh => rw [cut_nil]; rfl
  | marker c rest name h ih =>
      obtain ⟨after, heq, -⟩ := markerName?_eq_some_iff.1 h
      obtain ⟨rfl, rfl⟩ := List.cons.inj heq
      rw [List.drop_left] at ih
      rw [cut_marker h, List.drop_left]
      simp only [rejoined, List.nil_append, List.flatMap_cons, List.cons_append,
        List.append_assoc] at ih ⊢
      rw [ih]
  | char fresh c rest h ih =>
      rw [cut_char h]
      simp only [rejoined, List.cons_append] at ih ⊢
      rw [ih]

/-! ### What cutting leaves whole -/

/-- A marker at a place of a text, where `fresh` says whether a word may start at
the very beginning. -/
def IsMarkerFrom (fresh : Bool) (t : Text) (i : Nat) (name : Text) : Prop :=
  IsMarker t i name ∧ (i = 0 → fresh = true)

/-- No marker stands inside the part before the first marker. -/
theorem length_head_le {fresh : Bool} {t : Text} {i : Nat} {name : Text}
    (h : IsMarkerFrom fresh t i name) : (cut fresh t).1.length ≤ i := by
  induction fresh, t using cut_induction generalizing i with
  | nil fresh => rw [cut_nil]; exact Nat.zero_le i
  | marker c rest found hmarker ih => rw [cut_marker hmarker]; exact Nat.zero_le i
  | char fresh c rest hnone ih =>
      obtain ⟨⟨before, after, heq, hlength, hends, hne, hname, hafter⟩, hfresh⟩ := h
      rw [cut_char hnone, List.length_cons]
      -- a marker right here would have been cut at; a later one is one of the rest
      cases before with
      | nil =>
          obtain rfl : 0 = i := hlength
          have hsome := markerName?_eq_some_iff.2 ⟨after, heq, hne, hname, hafter⟩
          rw [if_pos (hfresh rfl), hsome] at hnone
          cases hnone
      | cons d before =>
          obtain ⟨rfl, rfl⟩ := List.cons.inj heq
          obtain rfl : before.length + 1 = i := hlength
          refine Nat.succ_le_succ (ih ⟨⟨before, after, rfl, rfl, ?_, hne, hname, hafter⟩, ?_⟩)
          · exact EndsBlank.of_append (a := [c]) hends
          · intro hzero
            rw [List.length_eq_zero_iff.1 hzero] at hends
            exact (endsBlank_concat (t := [])).1 hends

/-- A marker is found only where a word may start. -/
theorem endsBlank_head {fresh : Bool} {t : Text} (h : (cut fresh t).2 ≠ []) :
    EndsBlank (cut fresh t).1 ∧ ((cut fresh t).1 = [] → fresh = true) := by
  induction fresh, t using cut_induction with
  | nil fresh => rw [cut_nil] at h; exact absurd rfl h
  | marker c rest name hmarker ih =>
      rw [cut_marker hmarker]
      exact ⟨endsBlank_nil, fun _ => rfl⟩
  | char fresh c rest hnone ih =>
      rw [cut_char hnone] at h ⊢
      obtain ⟨hends, hempty⟩ := ih h
      refine ⟨?_, fun hnil => nomatch hnil⟩
      by_cases hhead : (cut (isBlank c) rest).1 = []
      · rw [hhead]
        exact (endsBlank_concat (t := [])).2 (hempty hhead)
      · exact (endsBlank_append (a := [c]) hhead).2 hends

/-- Trimming the part before the first marker makes no marker.  A word of the
trimmed part is a word of the text: blanks are cut off on its left, and on its
right either blanks or nothing, where a blank or the end of the text follows. -/
theorem trim_head_not_isMarker {fresh : Bool} {t : Text} (hstart : fresh = true ∨ StartsBlank t)
    (i : Nat) (name : Text) : ¬ IsMarker (trim (cut fresh t).1) i name := by
  rintro ⟨before, after, htrim, -, hends, hne, hname, hafter⟩
  obtain ⟨l, r, hhead, hl, hr⟩ := exists_trim (cut fresh t).1
  rw [htrim] at hhead
  obtain ⟨w, hw⟩ : ∃ w, w = (cut fresh t).2.flatMap fun p => '@' :: (p.1 ++ p.2) := ⟨_, rfl⟩
  have hwhole : t = (l ++ before) ++ '@' :: (name ++ (after ++ (r ++ w))) := by
    have hjoin := rejoined_cut fresh t
    rw [rejoined, ← hw, hhead] at hjoin
    simpa using hjoin.symm
  have hbefore : EndsBlank (l ++ before) := by
    by_cases hnil : before = []
    · rw [hnil, List.append_nil]
      exact endsBlank_of_areBlanks hl
    · exact (endsBlank_append hnil).2 hends
  have hrest : StartsBlank (after ++ (r ++ w)) := by
    by_cases hcut : after ++ r = []
    · -- the part ends with the name, so no marker may follow it
      obtain ⟨rfl, rfl⟩ := List.append_eq_nil_iff.1 hcut
      have hnone : (cut fresh t).2 = [] := by
        by_contra hsome
        have hlast := (endsBlank_head hsome).1
        have hshape : l ++ ((before ++ '@' :: (name ++ [])) ++ []) =
            (l ++ before ++ ['@']) ++ name := by simp
        rw [hhead, hshape, endsBlank_append hne] at hlast
        exact not_endsBlank_of_isWordChar hne hname hlast
      rw [hw, hnone]
      exact startsBlank_nil
    · rw [← List.append_assoc]
      refine (startsBlank_append hcut).2 ?_
      by_cases hnil : after = []
      · rw [hnil, List.nil_append]
        exact startsBlank_of_areBlanks hr
      · exact (startsBlank_append hnil).2 hafter
  have hmarker : IsMarkerFrom fresh t (l ++ before).length name := by
    refine ⟨⟨l ++ before, after ++ (r ++ w), hwhole, rfl, hbefore, hne, hname, hrest⟩, ?_⟩
    intro hzero
    refine hstart.resolve_right fun hblank => ?_
    rw [hwhole, List.length_eq_zero_iff.1 hzero, List.nil_append, startsBlank_cons] at hblank
    exact absurd hblank (by decide)
  have hle := length_head_le hmarker
  rw [hhead] at hle
  simp only [List.length_append, List.length_cons] at hle
  omega

theorem trim_value_not_isMarker (fresh : Bool) (t : Text) :
    ∀ p ∈ (cut fresh t).2, ∀ i name, ¬ IsMarker (trim p.2) i name := by
  induction fresh, t using cut_induction with
  | nil fresh => simp [cut_nil]
  | marker c rest found h ih =>
      obtain ⟨after, heq, -, -, hafter⟩ := markerName?_eq_some_iff.1 h
      obtain ⟨rfl, rfl⟩ := List.cons.inj heq
      rw [List.drop_left] at ih
      rw [cut_marker h, List.drop_left]
      intro p hp i name
      rcases List.mem_cons.1 hp with rfl | hmore
      · exact trim_head_not_isMarker (.inr hafter) i name
      · exact ih p hmore i name
  | char fresh c rest h ih => rw [cut_char h]; exact ih

/-! ### The segmentation -/

theorem length_markedParts (t : Text) (ms : List (Nat × Text)) :
    (markedParts t ms).length = ms.length := by
  induction ms with
  | nil => rfl
  | cons m more ih => rw [markedParts, List.length_cons, List.length_cons, ih]

theorem visible_rejoined (head : Text) (marked : List (Text × Text)) :
    visible (rejoined (trim head, marked.map fun p => (p.1, trim p.2))) =
      visible (rejoined (head, marked)) := by
  have hmarked : visible ((marked.map fun p => (p.1, trim p.2)).flatMap
      fun p => '@' :: (p.1 ++ p.2)) = visible (marked.flatMap fun p => '@' :: (p.1 ++ p.2)) := by
    induction marked with
    | nil => rfl
    | cons p more ih =>
        have hpart : visible ('@' :: (p.1 ++ trim p.2)) = visible ('@' :: (p.1 ++ p.2)) := by
          rw [← List.singleton_append, ← List.singleton_append (l := p.1 ++ p.2)]
          simp only [visible_append, visible_trim]
        rw [List.map_cons, List.flatMap_cons, List.flatMap_cons, visible_append, visible_append, ih,
          hpart]
  rw [rejoined, rejoined, visible_append, visible_append, visible_trim, hmarked]

/-- A whole text is cut at all of its markers. -/
theorem cut_markers (t : Text) :
    cut true t = (slice t 0 (nextPlace t (markers t)), markedParts t (markers t)) :=
  cut_eq (Nat.zero_le t.length)

/-- The number of visible characters of a comment, marks and names included, can be
told from its description and its tags. -/
theorem length_visible_parse (raw : Text) :
    (visible (normalize raw)).length = (visible (parse raw).description).length +
      (visible ((parse raw).tags.pairs.flatMap fun p => '@' :: (p.1 ++ p.2))).length := by
  obtain ⟨marked, hmarked⟩ :
      ∃ marked, marked = (cut true (normalize raw)).2.map fun p => (p.1, trim p.2) := ⟨_, rfl⟩
  have hkept := visible_rejoined (cut true (normalize raw)).1 (cut true (normalize raw)).2
  rw [rejoined_cut, ← hmarked, rejoined, visible_append] at hkept
  have hparse : parse raw =
      { description := trim (cut true (normalize raw)).1, tags := Tags.ofPairs marked } := by
    rw [hmarked]
    rfl
  -- grouping changes the order of the values only
  have hgrouped : (visible ((Tags.ofPairs marked).pairs.flatMap fun p => '@' :: (p.1 ++ p.2))).Perm
      (visible (marked.flatMap fun p => '@' :: (p.1 ++ p.2))) :=
    ((Tags.pairs_ofPairs marked).flatMap_right _).filter _
  rw [hparse, ← hkept, List.length_append, hgrouped.length_eq]

/-- Reading a normal form again tells the same exactly when it is bare. -/
theorem parse_normalize_eq_iff (raw : Text) :
    parse (normalize raw) = parse raw ↔ IsBare (normalize raw) := by
  constructor
  · intro h
    refine isBare_of_length_visible (trim_normalize raw) ?_
    rw [length_visible_parse (normalize raw), h, ← length_visible_parse raw]
  · intro h
    rw [parse, normalize_eq_self h, ← parse]

/-- Reading a comment segments its normal form at all of its markers. -/
theorem parse_segmentation (raw : Text) :
    Segmentation (normalize raw) (markers (normalize raw)) (parse raw) := by
  obtain ⟨t, ht⟩ : ∃ t, t = normalize raw := ⟨_, rfl⟩
  have htrim : trim t = t := ht ▸ trim_normalize raw
  have hcut := cut_markers t
  have hparse : parse raw = { description := trim (cut true t).1
                              tags := Tags.grouped (markedValues t (markers t)) } := by
    rw [parse, ← ht, hcut, ← Tags.ofPairs_eq_grouped]
    rfl
  rw [← ht, hparse]
  refine ⟨fun i name => mem_markers, markers_pairwise t, ?_, ?_, rfl, ?_, ?_, ?_, ?_⟩
  · rw [hcut]
  · intro hnone
    rw [hcut, hnone]
    simp only [slice, nextPlace, List.head?_nil, Option.map_none, Option.getD_none,
      List.take_length, List.drop_zero]
    exact htrim
  · rw [← Tags.ofPairs_eq_grouped, (Tags.pairs_ofPairs _).length_eq, markedValues,
      List.length_map, length_markedParts]
  · have hkept := visible_rejoined (cut true t).1 (cut true t).2
    rw [rejoined_cut, hcut] at hkept
    rw [← hkept, hcut]
    rfl
  · exact trim_head_not_isMarker (.inl rfl)
  · intro entry hentry v hv i name
    obtain ⟨p, hp, rfl⟩ := Tags.exists_of_mem_grouped hentry hv
    obtain ⟨q, hq, rfl⟩ := List.mem_map.1 hp
    refine trim_value_not_isMarker true t q ?_ i name
    rw [hcut]
    exact hq

end DocPress.Comment
