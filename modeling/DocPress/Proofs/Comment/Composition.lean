import DocPress.Proofs.Comment.Segmentation

/-!
# Comments composed from their parts

A description and a list of tags are written down as a text, the description first and
each tag as its marker and its value on a line of its own, and the text may be put between
the delimiters of a comment with a star before each line.  Reading gives the parts back
(`parse_composed`).

Two things have to fit together.  Normalizing takes the delimiters, the stars and the
blanks at the ends of lines off, and nothing else (`normalize_composed`,
`normalize_starred`).  And parts without markers of their own make none when they are put
together, because blanks stand between them and the markers (`cut_append_of_whole`).
-/

namespace DocPress.Comment

open Text

/-- A text that can be a description or a value as it stands: trimmed lines with single
line feeds between them, no blanks around it, and no marker in it. -/
structure IsPart (t : Text) : Prop where
  trimmed : IsTrimmed t
  lines : ∀ line ∈ splitAt '\n' t, IsTrimmed line ∧ OneLine line
  whole : ∀ i name, ¬ IsMarker t i name

instance (t : Text) : Decidable (IsPart t) :=
  decidable_of_iff
    (IsTrimmed t ∧ (∀ line ∈ splitAt '\n' t, IsTrimmed line ∧ OneLine line) ∧ markers t = [])
    ⟨fun h => ⟨h.1, h.2.1, fun i name hmarker => by
        have hmem := mem_markers.2 hmarker
        rw [h.2.2] at hmem
        cases hmem⟩,
      fun h => ⟨h.trimmed, h.lines, List.eq_nil_iff_forall_not_mem.2 fun m hm =>
        h.whole m.1 m.2 (mem_markers.1 hm)⟩⟩

/-- A tag as it is written: its marker, a blank and its value.  The blank may be left out
when there is no value. -/
inductive IsTagText : Text × Text → Text → Prop where
  | valued (name value : Text) : IsTagText (name, value) ('@' :: (name ++ ' ' :: value))
  | empty (name : Text) : IsTagText (name, []) ('@' :: name)

/-- The texts of a description, which is left out when it is empty, and of tags. -/
def partTexts (d : Text) (tagTexts : List Text) : List Text :=
  (if d = [] then [] else [d]) ++ tagTexts

/-- A text that is composed of a description and tags, and that has no delimiters and no
stars that reading a comment would take away. -/
structure IsComposed (d : Text) (tags : List (Text × Text)) (t : Text) : Prop where
  description : IsPart d
  names : ∀ p ∈ tags, IsName p.1
  values : ∀ p ∈ tags, IsPart p.2
  text : ∃ tagTexts, List.Forall₂ IsTagText tags tagTexts ∧ t = join ['\n'] (partTexts d tagTexts)
  unopened : ¬ ['/', '*', '*'] <+: t
  unclosed : ¬ ['*', '/'] <:+ t
  unstarred : ∀ line ∈ (splitAt '\n' t).tail, line.head? ≠ some '*'

/-- A text as a comment: the delimiters on lines of their own, a star before each line. -/
def starred (t : Text) : Text :=
  join ['\n'] ("/**".toList :: ((splitAt '\n' t).map (" * ".toList ++ ·) ++ [" */".toList]))

/-- A text with the blanks at both ends of each of its lines taken off. -/
def trimLines (t : Text) : Text := join ['\n'] ((splitAt '\n' t).map trim)

/-! ### Parts without markers -/

/-- The marker at the beginning of a text is told from what stands before the first
blank. -/
theorem markerName?_of_append {v rest name : Text} (hv : v ≠ []) (hrest : StartsBlank rest)
    (h : markerName? (v ++ rest) = some name) : markerName? v = some name := by
  obtain ⟨after, heq, hne, hword, hafter⟩ := markerName?_eq_some_iff.1 h
  refine markerName?_eq_some_iff.2 ?_
  cases v with
  | nil => exact absurd rfl hv
  | cons c v =>
      obtain ⟨rfl, htail⟩ := List.cons.inj heq
      rcases List.append_eq_append_iff.1 htail with ⟨w, rfl, hw⟩ | ⟨w, rfl, rfl⟩
      · -- the name has no blank in it, so nothing of it stands behind the part
        obtain rfl : w = [] := by
          cases w with
          | nil => rfl
          | cons d w =>
              rw [hw, List.cons_append, startsBlank_cons] at hrest
              rw [isBlank_of_isWordChar (hword d (by simp))] at hrest
              cases hrest
        rw [List.append_nil] at hne hword ⊢
        exact ⟨[], by rw [List.append_nil], hne, hword, startsBlank_nil⟩
      · refine ⟨w, rfl, hne, hword, ?_⟩
        cases w with
        | nil => exact startsBlank_nil
        | cons d w => simpa [startsBlank_cons] using hafter

/-- A part without markers is cut nowhere, also when something follows it after a blank. -/
theorem cut_append_of_whole {fresh : Bool} {v rest : Text}
    (hv : ∀ i name, ¬ IsMarkerFrom fresh v i name) (hrest : StartsBlank rest) :
    cut fresh (v ++ rest) = (v ++ (cut false rest).1, (cut false rest).2) := by
  induction v generalizing fresh with
  | nil =>
      cases rest with
      | nil => simp only [List.nil_append, cut_nil]
      | cons c rest =>
          have hc : c ≠ '@' := by
            rintro rfl
            exact absurd (startsBlank_cons.1 hrest) (by decide)
          have hnone : ∀ fresh : Bool,
              (if fresh then markerName? (c :: rest) else none) = none := by
            intro fresh
            rw [markerName?_eq_none rest hc, ite_self]
          rw [List.nil_append, cut_char (hnone fresh), cut_char (hnone false), List.nil_append]
  | cons c v ih =>
      have hnone : (if fresh then markerName? (c :: (v ++ rest)) else none) = none := by
        by_contra hsome
        obtain ⟨name, hname⟩ := Option.ne_none_iff_exists'.1 hsome
        split at hname
        · next hfresh =>
            have hhere := markerName?_of_append (v := c :: v) (by simp) hrest hname
            obtain ⟨after, heq, hne, hword, hafter⟩ := markerName?_eq_some_iff.1 hhere
            exact hv 0 name
              ⟨⟨[], after, heq, rfl, endsBlank_nil, hne, hword, hafter⟩, fun _ => hfresh⟩
        · cases hname
      have hbehind : ∀ i name, ¬ IsMarkerFrom (isBlank c) v i name := by
        rintro i name ⟨⟨before, after, rfl, rfl, hends, hne, hword, hafter⟩, hfresh⟩
        refine hv (before.length + 1) name
          ⟨⟨c :: before, after, rfl, rfl, ?_, hne, hword, hafter⟩, nofun⟩
        cases before with
        | nil => exact (endsBlank_concat (t := [])).2 (hfresh rfl)
        | cons d before => exact (endsBlank_append (a := [c]) (by simp)).2 hends
      rw [List.cons_append, cut_char hnone, ih hbehind, List.cons_append]

theorem cut_blank {c : Char} (hc : isBlank c = true) (rest : Text) :
    cut false (c :: rest) = (c :: (cut true rest).1, (cut true rest).2) := by
  rw [cut_char (by rfl), hc]

/-- What may follow a part: nothing, or a line feed and a text that begins with a marker. -/
def FollowedBy (rest : Text) (marked : List (Text × Text)) : Prop :=
  rest = [] ∧ marked = [] ∨ ∃ t, rest = '\n' :: t ∧ cut true t = ([], marked)

theorem FollowedBy.startsBlank {rest : Text} {marked : List (Text × Text)}
    (h : FollowedBy rest marked) : StartsBlank rest := by
  rcases h with ⟨rfl, -⟩ | ⟨t, rfl, -⟩
  · exact startsBlank_nil
  · exact startsBlank_cons.2 (by decide)

/-- A part is cut off from the markers that follow it, with blanks behind it. -/
theorem IsPart.exists_cut {v rest : Text} {marked : List (Text × Text)} (hv : IsPart v)
    (hrest : FollowedBy rest marked) :
    ∃ blanks, AreBlanks blanks ∧ cut true (v ++ rest) = (v ++ blanks, marked) := by
  have hwhole : ∀ i name, ¬ IsMarkerFrom true v i name := fun i name h => hv.whole i name h.1
  rw [cut_append_of_whole hwhole hrest.startsBlank]
  rcases hrest with ⟨rfl, rfl⟩ | ⟨t, rfl, ht⟩
  · exact ⟨[], areBlanks_nil, by rw [cut_nil]⟩
  · exact ⟨['\n'], by decide, by rw [cut_blank (by decide), ht]⟩

/-- A written tag is cut into its name and its value, with blanks around it. -/
theorem IsTagText.exists_cut {p : Text × Text} {text rest : Text} {marked : List (Text × Text)}
    (htext : IsTagText p text) (hname : IsName p.1) (hvalue : IsPart p.2)
    (hrest : FollowedBy rest marked) :
    ∃ value, trim value = p.2 ∧ cut true (text ++ rest) = ([], (p.1, value) :: marked) := by
  have hmarker : ∀ after, StartsBlank after →
      cut true ('@' :: (p.1 ++ after)) =
        ([], (p.1, (cut false after).1) :: (cut false after).2) := by
    intro after hafter
    have hhere := markerName?_eq_some_iff.2 ⟨after, rfl, hname.ne_nil, hname.word, hafter⟩
    rw [cut_marker hhere, List.drop_left]
  cases htext with
  | valued name value =>
      obtain ⟨blanks, hblanks, hcut⟩ := hvalue.exists_cut hrest
      refine ⟨' ' :: (value ++ blanks), ?_, ?_⟩
      · have htrim := trim_append_blanks (l := [' ']) (by decide) hblanks value
        exact htrim.trans hvalue.trimmed.trim_eq
      · have hblank : isBlank ' ' = true := by decide
        rw [List.cons_append, List.append_assoc, List.cons_append,
          hmarker _ (startsBlank_cons.2 hblank), cut_blank hblank, hcut]
  | empty name =>
      rw [List.cons_append, hmarker rest hrest.startsBlank]
      rcases hrest with ⟨rfl, rfl⟩ | ⟨t, rfl, ht⟩
      · exact ⟨[], rfl, by rw [cut_nil]⟩
      · exact ⟨['\n'], rfl, by rw [cut_blank (by decide), ht]⟩

theorem exists_join_cons (x : Text) {texts : List Text} {marked : List (Text × Text)}
    (hcut : cut true (join ['\n'] texts) = ([], marked)) :
    ∃ rest, join ['\n'] (x :: texts) = x ++ rest ∧ FollowedBy rest marked := by
  cases texts with
  | nil =>
      have hnone : cut true (join ['\n'] []) = ([], []) := cut_nil true
      rw [hnone] at hcut
      exact ⟨[], by simp [join], .inl ⟨rfl, (Prod.mk.inj hcut).2.symm⟩⟩
  | cons next more => exact ⟨_, join_cons (by simp), .inr ⟨_, rfl, hcut⟩⟩

/-- Written tags are cut into their names and values. -/
theorem exists_cut_tagTexts {tags : List (Text × Text)} {texts : List Text}
    (htexts : List.Forall₂ IsTagText tags texts) (hnames : ∀ p ∈ tags, IsName p.1)
    (hvalues : ∀ p ∈ tags, IsPart p.2) :
    ∃ marked, marked.map (fun p => (p.1, trim p.2)) = tags ∧
      cut true (join ['\n'] texts) = ([], marked) := by
  induction htexts with
  | nil => exact ⟨[], rfl, cut_nil true⟩
  | @cons p text tags texts htext htexts ih =>
      obtain ⟨marked, hmarked, hcut⟩ := ih (fun q hq => hnames q (List.mem_cons_of_mem _ hq))
        fun q hq => hvalues q (List.mem_cons_of_mem _ hq)
      obtain ⟨rest, hjoin, hrest⟩ := exists_join_cons text hcut
      obtain ⟨value, hvalue, hfirst⟩ := htext.exists_cut (hnames p List.mem_cons_self)
        (hvalues p List.mem_cons_self) hrest
      refine ⟨(p.1, value) :: marked, ?_, by rw [hjoin, hfirst]⟩
      rw [List.map_cons, hmarked, hvalue]

/-- A description and written tags are cut into the description, names and values. -/
theorem exists_cut_partTexts {d : Text} {tags : List (Text × Text)} {texts : List Text}
    (hd : IsPart d) (htexts : List.Forall₂ IsTagText tags texts)
    (hnames : ∀ p ∈ tags, IsName p.1) (hvalues : ∀ p ∈ tags, IsPart p.2) :
    ∃ head marked, trim head = d ∧ marked.map (fun p => (p.1, trim p.2)) = tags ∧
      cut true (join ['\n'] (partTexts d texts)) = (head, marked) := by
  obtain ⟨marked, hmarked, hcut⟩ := exists_cut_tagTexts htexts hnames hvalues
  by_cases hempty : d = []
  · refine ⟨[], marked, hempty.symm, hmarked, ?_⟩
    rw [partTexts, if_pos hempty, List.nil_append, hcut]
  · obtain ⟨rest, hjoin, hrest⟩ := exists_join_cons d hcut
    obtain ⟨blanks, hblanks, hfirst⟩ := hd.exists_cut hrest
    refine ⟨d ++ blanks, marked, ?_, hmarked, ?_⟩
    · rw [trim_append_right hblanks, hd.trimmed.trim_eq]
    · rw [partTexts, if_neg hempty, List.singleton_append, hjoin, hfirst]

/-! ### Parts as they are written -/

/-- A part as it is written: lines that begin with no blank, and no blank at the end other
than the one behind the name of a tag without a value. -/
structure IsWritten (x : Text) : Prop where
  ne_nil : trim x ≠ []
  lines : ∀ line ∈ splitAt '\n' x, trimLeft line = line ∧ OneLine line
  trimmed : (splitAt '\n' x).map trim = splitAt '\n' (trim x)
  ending : trim x = x ∨ ∃ name, IsName name ∧ x = '@' :: (name ++ [' '])

theorem IsPart.map_trim {v : Text} (hv : IsPart v) :
    (splitAt '\n' v).map trim = splitAt '\n' v := by
  refine (List.map_congr_left fun line hline => ?_).trans (List.map_id _)
  exact (hv.lines line hline).1.trim_eq

theorem IsPart.isWritten {v : Text} (hv : IsPart v) (hne : v ≠ []) : IsWritten v := by
  have htrim := hv.trimmed.trim_eq
  refine ⟨by rwa [htrim], fun line hline => ?_, by rw [htrim, hv.map_trim], .inl htrim⟩
  exact ⟨(hv.lines line hline).1.trimLeft_eq, (hv.lines line hline).2⟩

/-- The first line of a part that is not empty is not empty. -/
theorem IsPart.exists_splitAt {v : Text} (hv : IsPart v) (hne : v ≠ []) :
    ∃ first more, splitAt '\n' v = first :: more ∧ first ≠ [] := by
  obtain ⟨first, more, hpieces⟩ := Text.exists_splitAt '\n' v
  refine ⟨first, more, hpieces, ?_⟩
  rintro rfl
  have hjoin := join_splitAt '\n' v
  rw [hpieces] at hjoin
  cases more with
  | nil => exact hne (by simpa [join] using hjoin.symm)
  | cons next more =>
      rw [join_cons (by simp)] at hjoin
      have hhead := hv.trimmed.head '\n' (by rw [← hjoin]; rfl)
      exact absurd hhead (by decide)

theorem isTrimmed_marked {name : Text} (h : IsName name) : IsTrimmed ('@' :: name) := by
  refine ⟨by simp; decide, fun c hc => ?_⟩
  rw [List.getLast?_cons_of_ne_nil h.ne_nil] at hc
  exact isBlank_of_isWordChar (h.word c (List.mem_of_mem_getLast? hc))

theorem trim_marked_blank {name : Text} (h : IsName name) :
    trim ('@' :: (name ++ [' '])) = '@' :: name :=
  (trim_append_right (by decide) ('@' :: name)).trans (isTrimmed_marked h).trim_eq

theorem isTrimmed_marker {t : Text} (ht : IsTrimmed t) (hne : t ≠ []) (name : Text) :
    IsTrimmed ('@' :: (name ++ ' ' :: t)) := by
  have htext : '@' :: (name ++ ' ' :: t) = ('@' :: (name ++ [' '])) ++ t := by simp
  refine ⟨by simp; decide, ?_⟩
  rw [htext, List.getLast?_append_of_ne_nil _ hne]
  exact ht.last

theorem oneLine_marked {name : Text} (h : IsName name) : OneLine ('@' :: (name ++ [' '])) := by
  have hname : OneLine name := by
    intro c hc
    by_contra hbreak
    have hblank := isBlank_of_isBreak (eq_true_of_ne_false hbreak)
    rw [isBlank_of_isWordChar (h.word c hc)] at hblank
    cases hblank
  have hends : OneLine ['@'] ∧ OneLine [' '] := by decide
  exact oneLine_append.2 ⟨hends.1, oneLine_append.2 ⟨hname, hends.2⟩⟩

theorem newline_notMem_of_oneLine {t : Text} (h : OneLine t) : '\n' ∉ t := fun hmem =>
  absurd (h '\n' hmem) (by decide)

theorem isWritten_marked {name : Text} (h : IsName name) : IsWritten ('@' :: name) := by
  have hone : OneLine ('@' :: name) := (oneLine_append (b := [' '])).1 (oneLine_marked h) |>.1
  have hpieces := splitAt_of_notMem (newline_notMem_of_oneLine hone)
  have htrim := (isTrimmed_marked h).trim_eq
  refine ⟨by simp [htrim], ?_, by rw [htrim, hpieces, List.map_singleton, htrim], .inl htrim⟩
  rw [hpieces]
  simpa using ⟨(isTrimmed_marked h).trimLeft_eq, hone⟩

theorem isWritten_marked_blank {name : Text} (h : IsName name) :
    IsWritten ('@' :: (name ++ [' '])) := by
  have hpieces := splitAt_of_notMem (newline_notMem_of_oneLine (oneLine_marked h))
  refine ⟨by simp [trim_marked_blank h], ?_, ?_, .inr ⟨name, h, rfl⟩⟩
  · have hleft : trimLeft ('@' :: (name ++ [' '])) = '@' :: (name ++ [' ']) := rfl
    rw [hpieces]
    simpa using ⟨hleft, oneLine_marked h⟩
  · have hname : '\n' ∉ '@' :: name := fun hmem =>
      newline_notMem_of_oneLine (oneLine_marked h) (List.mem_append_left [' '] hmem)
    rw [hpieces, List.map_singleton, trim_marked_blank h, splitAt_of_notMem hname]

/-- The marker of a tag stands on the first line of its value. -/
theorem isWritten_marked_value {name value : Text} (h : IsName name) (hvalue : IsPart value)
    (hne : value ≠ []) : IsWritten ('@' :: (name ++ ' ' :: value)) := by
  obtain ⟨first, more, hpieces, hfirst⟩ := hvalue.exists_splitAt hne
  have hlines : ∀ line ∈ first :: more, IsTrimmed line ∧ OneLine line := hpieces ▸ hvalue.lines
  obtain ⟨hhead, hmore⟩ := List.forall_mem_cons.1 hlines
  have happend : ∀ t, '@' :: (name ++ ' ' :: t) = ('@' :: (name ++ [' '])) ++ t := by simp
  have hcut : splitAt '\n' ('@' :: (name ++ ' ' :: value)) =
      ('@' :: (name ++ ' ' :: first)) :: more := by
    rw [happend value, happend first]
    exact splitAt_append_left (newline_notMem_of_oneLine (oneLine_marked h)) hpieces
  have hall : ∀ line ∈ ('@' :: (name ++ ' ' :: first)) :: more, IsTrimmed line ∧ OneLine line := by
    refine List.forall_mem_cons.2 ⟨⟨isTrimmed_marker hhead.1 hfirst name, ?_⟩, hmore⟩
    rw [happend]
    exact oneLine_append.2 ⟨oneLine_marked h, hhead.2⟩
  have htrim := (isTrimmed_marker hvalue.trimmed hne name).trim_eq
  refine ⟨by simp [htrim], ?_, ?_, .inl htrim⟩
  · rw [hcut]
    exact fun line hline => ⟨(hall line hline).1.trimLeft_eq, (hall line hline).2⟩
  · rw [htrim, hcut]
    refine (List.map_congr_left fun line hline => ?_).trans (List.map_id _)
    exact (hall line hline).1.trim_eq

/-- A written tag is a written part, and with its blanks taken off it is the same tag. -/
theorem IsTagText.isWritten {p : Text × Text} {text : Text} (h : IsTagText p text)
    (hname : IsName p.1) (hvalue : IsPart p.2) : IsWritten text ∧ IsTagText p (trim text) := by
  cases h with
  | valued name value =>
      by_cases hne : value = []
      · subst hne
        rw [trim_marked_blank hname]
        exact ⟨isWritten_marked_blank hname, .empty name⟩
      · rw [(isTrimmed_marker hvalue.trimmed hne name).trim_eq]
        exact ⟨isWritten_marked_value hname hvalue hne, .valued name value⟩
  | empty name =>
      rw [(isTrimmed_marked hname).trim_eq]
      exact ⟨isWritten_marked hname, .empty name⟩

/-! ### Normal forms of written parts -/

section normal

variable {parts : List Text} (hparts : ∀ x ∈ parts, IsWritten x)

include hparts

/-- Taking the blanks off all lines of written parts takes them off the parts. -/
theorem trimLines_join : trimLines (join ['\n'] parts) = join ['\n'] (parts.map trim) := by
  by_cases hne : parts = []
  · rw [hne]
    rfl
  · have hpieces : (parts.flatMap (splitAt '\n')).map trim =
        (parts.map trim).flatMap (splitAt '\n') := by
      rw [List.map_flatMap, List.flatMap_map]
      exact List.flatMap_congr fun x hx => (hparts x hx).trimmed
    rw [trimLines, splitAt_join hne, hpieces, ← splitAt_join (by simpa using hne), join_splitAt]

theorem isTrimmed_join_map_trim : IsTrimmed (join ['\n'] (parts.map trim)) := by
  have hne : ∀ x ∈ parts.map trim, x ≠ [] := List.forall_mem_map.2 fun x hx => (hparts x hx).ne_nil
  refine isTrimmed_join ?_ (fun h => ?_) fun h => ?_
  · exact List.forall_mem_map.2 fun x _ => isTrimmed_trim x
  · exact hne [] (List.mem_of_mem_head? h) rfl
  · exact hne [] (List.mem_of_mem_getLast? h) rfl

theorem lines_splitAt_join :
    ∀ line ∈ splitAt '\n' (join ['\n'] parts), trimLeft line = line ∧ OneLine line := by
  intro line hline
  by_cases hne : parts = []
  · obtain rfl : line = [] := by simpa [hne, join, splitAt] using hline
    exact ⟨rfl, by decide⟩
  · rw [splitAt_join hne, List.mem_flatMap] at hline
    obtain ⟨x, hx, hmem⟩ := hline
    exact (hparts x hx).lines line hmem

theorem trimLeft_join : trimLeft (join ['\n'] parts) = join ['\n'] parts := by
  cases parts with
  | nil => rfl
  | cons x more =>
      have hx := hparts x List.mem_cons_self
      obtain ⟨c, x', rfl⟩ : ∃ c x', x = c :: x' := by
        cases x with
        | nil => exact absurd rfl hx.ne_nil
        | cons c x' => exact ⟨c, x', rfl⟩
      have hc : isBlank c = false := by
        rcases hx.ending with htrim | ⟨name, -, heq⟩
        · exact (htrim ▸ isTrimmed_trim (c :: x')).head c rfl
        · obtain ⟨rfl, -⟩ := List.cons.inj heq
          decide
      obtain ⟨rest, hrest⟩ : ∃ rest, join ['\n'] ((c :: x') :: more) = c :: rest := by
        cases more with
        | nil => exact ⟨x', by simp [join]⟩
        | cons next more => exact ⟨_, join_cons (by simp)⟩
      rw [hrest]
      simp [trimLeft, hc]

/-- Written parts end with no blank, or with one behind the name of a tag. -/
theorem trimRight_join (hne : parts ≠ []) :
    trimRight (join ['\n'] parts) = join ['\n'] parts ∨
      ∃ front name, IsName name ∧ join ['\n'] parts = front ++ '@' :: (name ++ [' ']) ∧
        trimRight (join ['\n'] parts) = front ++ '@' :: name := by
  obtain ⟨more, x, rfl⟩ := (List.eq_nil_or_concat' parts).resolve_left hne
  have hx := hparts x (by simp)
  obtain ⟨front, hjoin⟩ : ∃ front, join ['\n'] (more ++ [x]) = front ++ x := by
    by_cases hmore : more = []
    · exact ⟨[], by simp [hmore, join]⟩
    · exact ⟨join ['\n'] more ++ ['\n'], by rw [join_concat hmore, List.append_assoc]⟩
  rw [hjoin]
  rcases hx.ending with htrim | ⟨name, hname, rfl⟩
  · refine .inl (trimRight_append_trimmed front (htrim ▸ isTrimmed_trim x) ?_)
    exact htrim ▸ hx.ne_nil
  · refine .inr ⟨front, name, hname, rfl, ?_⟩
    have hblank : front ++ '@' :: (name ++ [' ']) = (front ++ '@' :: name) ++ [' '] := by simp
    rw [hblank, trimRight_append_blanks _ (by decide),
      trimRight_append_trimmed front (isTrimmed_marked hname) (by simp)]

end normal

/-- Only the trimmed last line matters. -/
theorem cleaned_concat_congr {a b : Text} (h : trim a = trim b) (ls : List Text) :
    cleaned (ls ++ [a]) = cleaned (ls ++ [b]) := by
  cases ls with
  | nil => simp [cleaned, h]
  | cons first ls => simp [cleaned, stripStar_congr h]

/-- Blanks at the end of the last line make no difference to a normal form. -/
theorem trim_join_cleaned_append {r : Text} (hr : AreBlanks r) (hone : OneLine r) (t : Text) :
    trim (join ['\n'] (cleaned (lines (t ++ r)))) = trim (join ['\n'] (cleaned (lines t))) := by
  by_cases hne : r = []
  · rw [hne, List.append_nil]
  · obtain ⟨ls, last, hlines, hlast⟩ := exists_lines_append hone hne t
    rw [hlines, cleaned_concat_congr (trim_append_right hr last)]
    rcases hlast with hlines' | ⟨rfl, hlines'⟩
    · rw [hlines']
    · rw [hlines', trim_join_cleaned_concat]

theorem getLast?_splitAt {sep : Char} {t : Text} (hne : t ≠ []) (hlast : t.getLast? ≠ some sep) :
    (splitAt sep t).getLast? ≠ some [] := by
  intro hempty
  obtain ⟨front, hfront⟩ := List.getLast?_eq_some_iff.1 hempty
  have hjoin := join_splitAt sep t
  rw [hfront] at hjoin
  by_cases hnil : front = []
  · exact hne (by simpa [hnil, join] using hjoin.symm)
  · rw [join_concat hnil] at hjoin
    exact hlast (by simp [← hjoin])

theorem isStarred_of_trimLeft {line : Text} (hleft : trimLeft line = line)
    (hhead : line.head? ≠ some '*') : isStarred line = false := by
  by_contra hstarred
  obtain ⟨rest, htrim, -⟩ := stripStar_of_isStarred (eq_true_of_ne_false hstarred)
  have hprefix : trim line <+: trimLeft line := List.rdropWhile_prefix _ _
  obtain ⟨more, hmore⟩ := hprefix
  rw [hleft, htrim] at hmore
  exact hhead (by rw [← hmore]; rfl)

/-- Where no delimiter and no star is in the way, normalizing trims the lines. -/
theorem normalize_join {parts : List Text} (hparts : ∀ x ∈ parts, IsWritten x) {t : Text}
    (ht : t = join ['\n'] parts) (hopen : ¬ ['/', '*', '*'] <+: t) (hclose : ¬ ['*', '/'] <:+ t)
    (hstar : ∀ line ∈ (splitAt '\n' t).tail, line.head? ≠ some '*') :
    normalize t = trim (trimLines t) := by
  by_cases hne : t = []
  · rw [hne]
    rfl
  · have hlines := lines_splitAt_join hparts
    have hleft := trimLeft_join hparts
    have hright := trimRight_join hparts fun hnil => hne (by rw [ht, hnil]; rfl)
    rw [← ht] at hlines hleft hright
    have hbody : body t = trimRight t := by
      have hprefix : trimRight t <+: t := List.rdropWhile_prefix _ _
      have hunclosed : ¬ ['*', '/'] <:+ trimRight t := by
        rcases hright with heq | ⟨front, name, hname, -, heq⟩
        · rwa [heq]
        · -- a name does not end with a slash
          rintro ⟨u, hu⟩
          have hlast := congrArg List.getLast? (hu.trans heq)
          rw [List.getLast?_append_of_ne_nil _ (by simp),
            List.getLast?_append_of_ne_nil _ (by simp),
            List.getLast?_cons_of_ne_nil hname.ne_nil] at hlast
          have hslash := hname.word '/' (List.mem_of_mem_getLast? hlast.symm)
          exact absurd hslash (by decide)
      rw [body, trim, hleft, after?_eq_none fun h => hopen (h.trans hprefix), Option.getD_none,
        before?_eq_none hunclosed, Option.getD_none]
    obtain ⟨r, hblanks, hone, happend⟩ : ∃ r, AreBlanks r ∧ OneLine r ∧ trimRight t ++ r = t := by
      rcases hright with heq | ⟨front, name, -, hblank, heq⟩
      · exact ⟨[], by decide, by decide, by rw [heq, List.append_nil]⟩
      · exact ⟨[' '], by decide, by decide, by rw [heq, hblank]; simp⟩
    have hlast : t.getLast? ≠ some '\n' := by
      rcases hright with heq | ⟨front, name, -, hblank, -⟩
      · have htrim : trim t = t := by rw [trim, hleft, heq]
        intro hfeed
        exact absurd ((htrim ▸ isTrimmed_trim t).last '\n' hfeed) (by decide)
      · have hconcat : t = (front ++ '@' :: name) ++ [' '] := by simp [hblank]
        rw [hconcat, List.getLast?_concat]
        decide
    have hpieces : Text.lines t = splitAt '\n' t := by
      have hjoined :=
        lines_join (fun line hline => (hlines line hline).2) (getLast?_splitAt hne hlast)
      rwa [join_splitAt] at hjoined
    have hcleaned : cleaned (splitAt '\n' t) = (splitAt '\n' t).map trim := by
      obtain ⟨first, more, hsplit⟩ := Text.exists_splitAt '\n' t
      rw [hsplit] at hlines hstar ⊢
      rw [cleaned, List.map_cons]
      congr 1
      refine List.map_congr_left fun line hline => stripStar_of_not_isStarred ?_
      exact isStarred_of_trimLeft (hlines line (List.mem_cons_of_mem _ hline)).1 (hstar line hline)
    calc normalize t = trim (join ['\n'] (cleaned (Text.lines (trimRight t)))) := by
          rw [normalize_eq_trim_join, hbody]
      _ = trim (join ['\n'] (cleaned (Text.lines t))) := by
          rw [← trim_join_cleaned_append hblanks hone, happend]
      _ = trim (trimLines t) := by rw [hpieces, hcleaned, trimLines]

theorem stripStar_starred (line : Text) : stripStar (" * ".toList ++ line) = trim line := by
  have hstar : IsTrimmed ['*'] := by decide
  have htrim : trim (" * ".toList ++ line) = '*' :: trimRight (' ' :: line) := by
    have hblank := trim_append_left (l := [' ']) (by decide) ('*' :: ' ' :: line)
    exact hblank.trans (trim_trimmed_append hstar (by simp) _)
  rw [stripStar, htrim]
  exact (trim_trimRight _).trans (trim_append_left (l := [' ']) (by decide) line)

/-- Normalizing takes the delimiters and the stars off a text that was made a comment. -/
theorem normalize_starred {t : Text} (hlines : ∀ line ∈ splitAt '\n' t, OneLine line) :
    normalize (starred t) = trim (trimLines t) := by
  obtain ⟨middle, hmiddle⟩ :
      ∃ middle, middle = (splitAt '\n' t).map (" * ".toList ++ ·) := ⟨_, rfl⟩
  have hne : splitAt '\n' t ≠ [] := by
    obtain ⟨piece, more, hpieces⟩ := Text.exists_splitAt '\n' t
    simp [hpieces]
  have hmiddleNe : middle ≠ [] := by simpa [hmiddle] using hne
  have hstarred : starred t = delimited (join ['\n'] ([] :: (middle ++ [[' ']]))) := by
    rw [starred, ← hmiddle, delimited, join_cons (by simp), join_cons (by simp),
      join_concat hmiddleNe, join_concat hmiddleNe]
    simp
  have hone : ∀ line ∈ [] :: (middle ++ [[' ']]), OneLine line := by
    refine List.forall_mem_cons.2 ⟨by decide, List.forall_mem_append.2 ⟨?_, by simp; decide⟩⟩
    rw [hmiddle]
    refine List.forall_mem_map.2 fun line hline => oneLine_append.2 ⟨by decide, hlines line hline⟩
  have hcleaned : cleaned ([] :: (middle ++ [[' ']])) =
      [] :: ((splitAt '\n' t).map trim ++ [[]]) := by
    have hstrip : middle.map stripStar = (splitAt '\n' t).map trim := by
      rw [hmiddle, List.map_map]
      exact List.map_congr_left fun line _ => stripStar_starred line
    rw [cleaned, List.map_append, hstrip]
    rfl
  have hlast : ([] :: (middle ++ [[' ']])).getLast? ≠ some [] := by
    rw [← List.cons_append, List.getLast?_concat]
    decide
  rw [normalize_eq_trim_join, hstarred, body_delimited, lines_join hone hlast, hcleaned,
    join_cons (by simp), join_concat (by simpa using hne), List.nil_append, List.append_nil]
  exact trim_append_blanks (by decide) (by decide) _

/-! ### Reading what was composed -/

theorem isWritten_tagTexts {tags : List (Text × Text)} {texts : List Text}
    (htexts : List.Forall₂ IsTagText tags texts) (hnames : ∀ p ∈ tags, IsName p.1)
    (hvalues : ∀ p ∈ tags, IsPart p.2) :
    (∀ x ∈ texts, IsWritten x) ∧ List.Forall₂ IsTagText tags (texts.map trim) := by
  induction htexts with
  | nil => exact ⟨nofun, .nil⟩
  | cons htext _ ih =>
      obtain ⟨hname, hnames⟩ := List.forall_mem_cons.1 hnames
      obtain ⟨hvalue, hvalues⟩ := List.forall_mem_cons.1 hvalues
      obtain ⟨hwritten, htrimmed⟩ := htext.isWritten hname hvalue
      obtain ⟨hmore, hmoreTrimmed⟩ := ih hnames hvalues
      exact ⟨List.forall_mem_cons.2 ⟨hwritten, hmore⟩, .cons htrimmed hmoreTrimmed⟩

theorem IsPart.isWritten_partTexts {d : Text} {texts : List Text} (hd : IsPart d)
    (htexts : ∀ x ∈ texts, IsWritten x) : ∀ x ∈ partTexts d texts, IsWritten x := by
  rw [partTexts]
  split
  · exact htexts
  · next hne => exact List.forall_mem_cons.2 ⟨hd.isWritten hne, htexts⟩

theorem IsPart.map_trim_partTexts {d : Text} (hd : IsPart d) (texts : List Text) :
    (partTexts d texts).map trim = partTexts d (texts.map trim) := by
  rw [partTexts, partTexts, List.map_append]
  split
  · rfl
  · rw [List.map_singleton, hd.trimmed.trim_eq]

namespace IsComposed

variable {d t : Text} {tags : List (Text × Text)}

/-- Whatever has the lines of a composed text is read as the parts of the text. -/
theorem parse_of_normalize (h : IsComposed d tags t) {raw : Text}
    (hraw : normalize raw = trim (trimLines t)) : parse raw = ⟨d, Tags.grouped tags⟩ := by
  obtain ⟨tagTexts, htexts, ht⟩ := h.text
  obtain ⟨hwritten, htags⟩ := isWritten_tagTexts htexts h.names h.values
  have hparts := h.description.isWritten_partTexts hwritten
  obtain ⟨head, marked, hhead, hmarked, hcut⟩ :=
    exists_cut_partTexts h.description htags h.names h.values
  have hnormal : trim (trimLines t) = join ['\n'] (partTexts d (tagTexts.map trim)) := by
    rw [ht, trimLines_join hparts, (isTrimmed_join_map_trim hparts).trim_eq,
      h.description.map_trim_partTexts]
  rw [parse, hraw, hnormal, hcut, ← Tags.ofPairs_eq_grouped, ← hmarked, ← hhead]

/-- A composed text is read as its parts. -/
theorem parse_eq (h : IsComposed d tags t) : parse t = ⟨d, Tags.grouped tags⟩ := by
  obtain ⟨tagTexts, htexts, ht⟩ := h.text
  have hwritten := (isWritten_tagTexts htexts h.names h.values).1
  exact h.parse_of_normalize (normalize_join (h.description.isWritten_partTexts hwritten) ht
    h.unopened h.unclosed h.unstarred)

/-- A composed text that is made a comment is read as its parts. -/
theorem parse_starred (h : IsComposed d tags t) : parse (starred t) = ⟨d, Tags.grouped tags⟩ := by
  obtain ⟨tagTexts, htexts, ht⟩ := h.text
  have hwritten := (isWritten_tagTexts htexts h.names h.values).1
  have hlines : ∀ line ∈ splitAt '\n' t, OneLine line := fun line hline =>
    (lines_splitAt_join (h.description.isWritten_partTexts hwritten) line (ht ▸ hline)).2
  exact h.parse_of_normalize (normalize_starred hlines)

end IsComposed

/-- Without a star in the text nothing of it is taken for a delimiter or a star. -/
theorem isComposed_of_notMem {d : Text} {tags : List (Text × Text)} {tagTexts : List Text}
    (hd : IsPart d) (hnames : ∀ p ∈ tags, IsName p.1) (hvalues : ∀ p ∈ tags, IsPart p.2)
    (htexts : List.Forall₂ IsTagText tags tagTexts) (hstar : ∀ x ∈ partTexts d tagTexts, '*' ∉ x) :
    IsComposed d tags (join ['\n'] (partTexts d tagTexts)) := by
  have hnone : '*' ∉ join ['\n'] (partTexts d tagTexts) := by
    intro hmem
    rcases mem_of_mem_join hmem with hsep | ⟨x, hx, hstarred⟩
    · exact absurd hsep (by decide)
    · exact hstar x hx hstarred
  refine ⟨hd, hnames, hvalues, ⟨tagTexts, htexts, rfl⟩, fun hopened => ?_, fun hclosed => ?_,
    fun line hline hhead => ?_⟩
  · exact hnone (hopened.subset (by decide))
  · exact hnone (hclosed.subset (by decide))
  · exact hnone (mem_of_mem_splitAt (List.mem_of_mem_tail hline) (List.mem_of_head? hhead))

/-- Reading a composed text gives its parts back, also after it was made a comment. -/
theorem parse_composed {d t : Text} {tags : List (Text × Text)} (h : IsComposed d tags t) :
    parse t = ⟨d, Tags.grouped tags⟩ ∧ parse (starred t) = ⟨d, Tags.grouped tags⟩ :=
  ⟨h.parse_eq, h.parse_starred⟩

/-- A tag twice, one without a value, a value on two lines, and an address that is no
marker. -/
theorem parse_composed_mail :
    let d : Text := "*Mail* to\n\na@b.c".toList
    let tags : List (Text × Text) := [("to".toList, "one\ntwo".toList), ("cc".toList, []),
      ("to".toList, "@".toList)]
    let t : Text := "*Mail* to\n\na@b.c\n@to one\ntwo\n@cc \n@to @".toList
    IsComposed d tags t ∧
      parse t = ⟨d, [("to".toList, ["one\ntwo".toList, "@".toList]), ("cc".toList, [[]])]⟩ ∧
      parse (starred t) =
        ⟨d, [("to".toList, ["one\ntwo".toList, "@".toList]), ("cc".toList, [[]])]⟩ := by
  intro d tags t
  have hcomposed : IsComposed d tags t := by
    refine ⟨by decide, by decide, by decide, ⟨_, .cons (.valued _ _) (.cons (.valued _ _)
      (.cons (.valued _ _) .nil)), by decide⟩, by decide, by decide, by decide⟩
  have hgrouped : Tags.grouped tags =
      [("to".toList, ["one\ntwo".toList, "@".toList]), ("cc".toList, [[]])] := by decide
  rw [← hgrouped]
  exact ⟨hcomposed, parse_composed hcomposed⟩

end DocPress.Comment
