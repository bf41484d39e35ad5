import DocPress.Comment.Block
import DocPress.Proofs.Comment.Marker
import DocPress.Proofs.Comment.Tags
import DocPress.Proofs.Text.Words

/-!
# Tags as words

The markers of a text are those of its words that are an at sign and a name
(`map_fst_cut`).  So a tag has as many values as the normal form of the comment holds
its word (`length_tagValues`), and where the lines and blanks of a comment lie matters
only as far as it makes words.
-/

namespace DocPress

namespace Comment

open Text

/-- The words that begin in a text, where `fresh` says whether one may begin at the very
beginning. -/
def wordsFrom (fresh : Bool) (t : Text) : List Text :=
  words (if fresh then t else t.dropWhile (!isBlank ·))

theorem startsBlank_dropWhile (t : Text) : StartsBlank (t.dropWhile (!isBlank ·)) := by
  intro c hc
  have hnot := List.head?_dropWhile_not (!isBlank ·) t
  rw [Option.mem_def.1 hc] at hnot
  simpa using hnot

/-- A word is a marker if it is an at sign and a name. -/
theorem markerName?_of_isWord {w name : Text} (hw : IsWord w) :
    markerName? w = some name ↔ w = '@' :: name ∧ name ≠ [] ∧ ∀ c ∈ name, isWordChar c = true := by
  rw [markerName?_eq_some_iff]
  constructor
  · rintro ⟨after, rfl, hne, hname, hafter⟩
    -- what follows the name begins with a blank, and a word has none
    cases after with
    | nil => exact ⟨by rw [List.append_nil], hne, hname⟩
    | cons c after =>
        have hc := hw.visible c (by simp)
        rw [startsBlank_cons.1 hafter] at hc
        cases hc
  · rintro ⟨rfl, hne, hname⟩
    exact ⟨[], by rw [List.append_nil], hne, hname, startsBlank_nil⟩

/-- The marker at the beginning of a text is its first word. -/
theorem markerName?_takeWhile {c : Char} (h : isBlank c = false) (rest : Text) :
    markerName? (c :: rest.takeWhile (!isBlank ·)) = markerName? (c :: rest) := by
  have hsplit : rest = rest.takeWhile (!isBlank ·) ++ rest.dropWhile (!isBlank ·) :=
    List.takeWhile_append_dropWhile.symm
  have hword : IsWord (c :: rest.takeWhile (!isBlank ·)) := by
    refine ⟨by simp, List.forall_mem_cons.2 ⟨h, fun d hd => ?_⟩⟩
    simpa using List.mem_takeWhile_imp hd
  refine Option.ext fun name => ?_
  rw [markerName?_of_isWord hword, markerName?_eq_some_iff]
  constructor
  · rintro ⟨heq, hne, hname⟩
    obtain ⟨rfl, htake⟩ := List.cons.inj heq
    exact ⟨_, by rw [← htake, ← hsplit], hne, hname, startsBlank_dropWhile rest⟩
  · rintro ⟨after, heq, hne, hname, hafter⟩
    obtain ⟨rfl, rfl⟩ := List.cons.inj heq
    have hvisible : ∀ d ∈ name, (!isBlank d) = true := fun d hd => by
      simp [isBlank_of_isWordChar (hname d hd)]
    refine ⟨?_, hne, hname⟩
    rw [(takeWhile_run hvisible fun d hd => by simp [hafter d hd]).1]

/-- The names of the markers of a text are read off its words. -/
theorem map_fst_cut (fresh : Bool) (t : Text) :
    (cut fresh t).2.map Prod.fst = (wordsFrom fresh t).filterMap markerName? := by
  induction fresh, t using cut_induction with
  | nil fresh => rw [cut_nil]; cases fresh <;> rfl
  | marker c rest name h ih =>
      have hfirst := markerName?_eq_some_iff.1 h
      obtain ⟨after, heq, -, hname, -⟩ := hfirst
      obtain ⟨rfl, rfl⟩ := List.cons.inj heq
      have hvisible : ∀ d ∈ name, (!isBlank d) = true := fun d hd => by
        simp [isBlank_of_isWordChar (hname d hd)]
      have hat : isBlank '@' = false := by decide
      have hword := markerName?_takeWhile hat (name ++ after)
      rw [h] at hword
      rw [List.drop_left] at ih
      rw [cut_marker h, List.drop_left, List.map_cons, ih, wordsFrom, wordsFrom, if_pos rfl,
        if_neg (by decide), words_visible hat, List.filterMap_cons_some hword,
        List.dropWhile_append_of_pos hvisible]
  | char fresh c rest h ih =>
      rw [cut_char h, ih, wordsFrom, wordsFrom]
      cases hc : isBlank c with
      | true => cases fresh <;> simp [hc, words_blank hc]
      | false =>
          cases fresh with
          | false => simp [hc]
          | true =>
              have hnone := (markerName?_takeWhile hc rest).trans h
              rw [if_pos rfl, if_neg (by decide), words_visible hc, List.filterMap_cons_none hnone]

/-! ### Values of a tag -/

namespace Tags

theorem valuesOf_eq_nil {pairs : List (Text × Text)} {name : Text}
    (h : name ∉ pairs.map Prod.fst) : valuesOf pairs name = [] := by
  rw [valuesOf, List.map_eq_nil_iff, List.filter_eq_nil_iff]
  intro p hp heq
  exact h (List.mem_map.2 ⟨p, hp, by simpa using heq⟩)

/-- The values of a tag are all that were marked with its name. -/
theorem values_ofPairs (pairs : List (Text × Text)) (name : Text) :
    (ofPairs pairs).values name = valuesOf pairs name := by
  rw [ofPairs_eq_grouped, values, grouped, List.find?_map]
  cases hfind : (pairs.map Prod.fst).eraseDups.find?
      ((fun entry => entry.1 == name) ∘ fun name => (name, valuesOf pairs name)) with
  | none =>
      rw [List.find?_eq_none] at hfind
      rw [valuesOf_eq_nil fun hmem => hfind name (List.mem_eraseDups.2 hmem) (by simp)]
      rfl
  | some found =>
      have hfound := List.find?_some hfind
      simp only [Function.comp_apply, beq_iff_eq] at hfound
      rw [hfound]
      rfl

theorem length_valuesOf (pairs : List (Text × Text)) (name : Text) :
    (valuesOf pairs name).length = (pairs.map Prod.fst).count name := by
  rw [valuesOf, List.length_map, ← List.countP_eq_length_filter, List.count, List.countP_map]
  rfl

end Tags
end Comment

open Comment Text

/-- A tag has as many values as the normal form of the comment holds its word. -/
theorem Block.length_tagValues (b : Block) {name : Text} (hne : name ≠ [])
    (hname : ∀ c ∈ name, isWordChar c = true) :
    (b.tagValues name).length = (words (Comment.normalize b.rawText)).count ('@' :: name) := by
  have hnames : (((cut true (Comment.normalize b.rawText)).2.map
      fun p => (p.1, trim p.2)).map Prod.fst) =
      (words (Comment.normalize b.rawText)).filterMap markerName? := by
    rw [List.map_map]
    exact map_fst_cut true _
  have hvalues : b.tagValues name = Tags.valuesOf ((cut true (Comment.normalize b.rawText)).2.map
      fun p => (p.1, trim p.2)) name := Tags.values_ofPairs _ _
  rw [hvalues, Tags.length_valuesOf, hnames, List.count, List.countP_filterMap, List.count]
  refine List.countP_congr fun w hw => ?_
  have hword : markerName? w = some name ↔ w = '@' :: name :=
    (markerName?_of_isWord (isWord_of_mem_words w hw)).trans ⟨And.left, fun h => ⟨h, hne, hname⟩⟩
  rw [beq_iff_eq, ← hword]
  cases markerName? w <;> simp

end DocPress
