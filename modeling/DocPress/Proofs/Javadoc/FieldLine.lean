import DocPress.Proofs.Javadoc.MemberLine

/-!
# Fields on lines of their own

A field is written as modifiers, a type, a name, an initializer if there is one, and a
semicolon.  Two things can keep it from being found (`step_fieldText`).

Methods are looked for first and anywhere on the line, so a call in the initializer makes a
method: a blank, a name, parentheses and a semicolon or a brace are enough, because there
is always a word before the blank that can be taken for a type (`FieldText.methodOn?_text`).

And the leftmost reading is taken, so a modifier is taken for the type if a name and the
end of a field follow it.  The end can come early only inside of the type, where a
semicolon or an equals sign may stand (`SplitsType`, `leftmost?_spaced`).
-/

namespace DocPress.Javadoc

open Text

/-- A field with at least one modifier, as it is written on a line. -/
structure FieldText extends MemberHead fieldModifiers where
  before : Text
  initializer : Option Text
  isModified : modifiers ≠ []
  areBlanks_before : AreBlanks before
  isInitializer : ∀ t ∈ initializer, ';' ∉ t

/-- A blank, a name and the end of a method stand in a row. -/
def HoldsCall (t : Text) : Prop :=
  ∃ front c name tail, t = front ++ c :: (name ++ tail) ∧ isBlank c = true ∧ IsName name ∧
    MethodEnd tail

/-- The initializer, up to the semicolon that ends the field, holds a call. -/
def FieldText.InitializerHoldsCall (f : FieldText) : Prop :=
  ∃ t ∈ f.initializer, HoldsCall (t ++ [';'])

/-- A semicolon or an equals sign ends the first word of a type. -/
def BreaksAfter (type word : Text) : Prop :=
  (∀ c ∈ word, isWordChar c = true) ∧ ∃ c rest, type = word ++ c :: rest ∧ (c = ';' ∨ c = '=')

/-- A type that can be read as the end of an earlier field: its first word is the name of
that field and the modifier before it the type, or it begins with the end and the last two
modifiers are type and name.  Such a field is found where one more modifier stands
before it. -/
def SplitsType (count : Nat) (type : Text) : Prop :=
  ∃ word, BreaksAfter type word ∧ (if word = [] then 3 else 2) ≤ count

theorem not_holdsCall {t : Text} (h : '(' ∉ t) : ¬ HoldsCall t := by
  rintro ⟨front, c, name, tail, rfl, -, -, before, arguments, after, mark, rest, rfl, -⟩
  exact h (by simp)

theorem not_splitsType {type : Text} (hsemicolon : ';' ∉ type) (hequals : '=' ∉ type)
    (count : Nat) : ¬ SplitsType count type := by
  rintro ⟨word, ⟨-, c, rest, rfl, rfl | rfl⟩, -⟩
  · exact hsemicolon (by simp)
  · exact hequals (by simp)

theorem isName_fieldModifiers : ∀ m ∈ fieldModifiers, IsName m := by decide

theorem eq_of_suffix_fieldModifiers :
    ∀ m ∈ fieldModifiers, ∀ w ∈ fieldModifiers, w <:+ m → w = m := by decide

/-! ### Methods in initializers -/

/-- A text that ends visibly and holds a blank ends with a word behind a blank. -/
theorem exists_lastWord {t : Text} {c : Char} (hc : c ∈ t) (hblank : isBlank c = true)
    (hlast : ∀ d ∈ t.getLast?, isBlank d = false) :
    ∃ u g w, t = u ++ g :: w ∧ isBlank g = true ∧ IsWord w := by
  have hsplit : t.rdropWhile (!isBlank ·) ++ t.rtakeWhile (!isBlank ·) = t :=
    List.rdropWhile_append_rtakeWhile
  have hne : t.rdropWhile (!isBlank ·) ≠ [] := by
    intro hnil
    have hvisible := List.rdropWhile_eq_nil_iff.1 hnil c hc
    simp [hblank] at hvisible
  have hg : isBlank ((t.rdropWhile (!isBlank ·)).getLast hne) = true := by
    simpa using List.rdropWhile_last_not (!isBlank ·) t hne
  refine ⟨(t.rdropWhile (!isBlank ·)).dropLast, _, t.rtakeWhile (!isBlank ·), ?_, hg, ?_, ?_⟩
  · rw [List.append_cons, List.dropLast_append_getLast, hsplit]
  · intro hnil
    rw [hnil, List.append_nil] at hsplit
    have hend := hlast _ (by rw [← hsplit]; exact List.getLast?_eq_some_getLast hne)
    rw [hg] at hend
    cases hend
  · intro d hd
    simpa using List.mem_rtakeWhile_imp hd

/-- A text in which `c` follows `a` and `d` follows `p` and `y`: if `d` is not in `a` and `c`
is not in `y`, then `p` reaches past `c`. -/
theorem exists_of_append_cons_eq {a p y rest z : Text} {c d : Char} (hd : d ∉ a) (hc : c ∉ y)
    (hne : c ≠ d) (h : a ++ c :: rest = p ++ (y ++ d :: z)) :
    ∃ w, p = a ++ c :: w ∧ rest = w ++ (y ++ d :: z) := by
  rcases List.append_eq_append_iff.1 h with ⟨w, rfl, hw⟩ | ⟨w, rfl, hw⟩
  · cases w with
    | nil =>
        exfalso
        cases y with
        | nil => exact hne (List.cons.inj hw).1
        | cons e y => exact hc ((List.cons.inj hw).1 ▸ List.mem_cons_self)
    | cons e w =>
        obtain ⟨rfl, hrest⟩ := List.cons.inj hw
        exact ⟨w, rfl, hrest⟩
  · -- the second mark would have to stand in `a`, or the first in `y`
    exfalso
    rcases List.append_eq_append_iff.1 hw with ⟨v, rfl, hv⟩ | ⟨v, rfl, hv⟩
    · cases v with
      | nil => exact hne (List.cons.inj hv).1.symm
      | cons e v => exact hd (by rw [(List.cons.inj hv).1]; simp)
    · cases v with
      | nil => exact hne (List.cons.inj hv).1
      | cons e v => exact hc (by rw [(List.cons.inj hv).1]; simp)

namespace FieldText

variable (f : FieldText)

/-- What stands behind the name. -/
def ending : Text := f.before ++ (f.initializer.elim [] ('=' :: ·) ++ [';'])

def text : Text := f.toMemberHead.text ++ f.ending

theorem isTrimmed_text : IsTrimmed f.text := by
  refine ⟨f.beginsVisible_text isName_fieldModifiers _, fun c hc => ?_⟩
  have hlast : f.text.getLast? = some ';' := by
    rw [text, ending, ← List.append_assoc, ← List.append_assoc, List.getLast?_concat]
  obtain rfl : ';' = c := Option.some.inj (hlast.symm.trans hc)
  decide

theorem fieldEnd_ending : FieldEnd f.ending := by
  cases hinit : f.initializer with
  | none => exact ⟨f.before, ';', [], by simp [ending, hinit], f.areBlanks_before, .inl rfl⟩
  | some t =>
      exact ⟨f.before, '=', t ++ [';'], by simp [ending, hinit], f.areBlanks_before,
        .inr ⟨rfl, by simp⟩⟩

/-- A method that is spelled out on the line has its name in the initializer, because there
is no parenthesis before the equals sign. -/
theorem initializerHoldsCall_of_spelledOn {type name : Text}
    (h : SpelledOn isMethodTail f.text type name) : f.InitializerHoldsCall := by
  obtain ⟨front, gap, between, tail, heq, -, -, hbetween, hname, htail⟩ := h
  obtain ⟨before, arguments, after, mark, rest, rfl, hbefore, -⟩ := isMethodTail_iff.1 htail
  have hhead := f.parenthesis_notMem isName_fieldModifiers f.areBlanks_before
  cases hinit : f.initializer with
  | none =>
      have hmem : '(' ∈ (f.toMemberHead.text ++ f.before) ++ [';'] := by
        have htext : f.text = (f.toMemberHead.text ++ f.before) ++ [';'] := by
          simp [text, ending, hinit]
        rw [← htext, heq]
        simp
      rcases List.mem_append.1 hmem with hmem | hmem
      · exact absurd hmem hhead
      · exact absurd hmem (by decide)
  | some t =>
      have hequals : '=' ∉ name ++ before := by
        refine fun hmem => (List.mem_append.1 hmem).elim (fun hmem => ?_) fun hmem => ?_
        · exact absurd (hname.word _ hmem) (by decide)
        · exact absurd (hbefore _ hmem) (by decide)
      have hsplit : (f.toMemberHead.text ++ f.before) ++ '=' :: (t ++ [';']) =
          (front ++ (gap ++ (type ++ between))) ++
            ((name ++ before) ++ '(' :: (arguments ++ ')' :: (after ++ mark :: rest))) := by
        simpa [text, ending, hinit] using heq
      obtain ⟨w, hw, ht⟩ := exists_of_append_cons_eq hhead hequals (by decide) hsplit
      -- blanks stand before the name, so something of the initializer does
      obtain ⟨blanks, c, rfl⟩ := (List.eq_nil_or_concat' between).resolve_left hbetween.ne_nil
      have hc : isBlank c = true := hbetween.blanks c (by simp)
      rcases List.eq_nil_or_concat' w with rfl | ⟨w, d, rfl⟩
      · have hlast := congrArg List.getLast? hw
        simp only [← List.append_assoc, List.getLast?_concat] at hlast
        obtain rfl := Option.some.inj hlast
        exact absurd hc (by decide)
      · have hlast := congrArg List.getLast? hw
        simp only [← List.append_assoc, ← List.cons_append, List.getLast?_concat] at hlast
        obtain rfl := Option.some.inj hlast
        exact ⟨t, hinit, w, c, name, _, by simpa using ht, hc, hname, isMethodTail_iff.1 htail⟩

/-- A call in the initializer spells out a method whose type is the word before its name. -/
theorem exists_spelledOn (h : f.InitializerHoldsCall) :
    ∃ type name, SpelledOn isMethodTail f.text type name := by
  obtain ⟨t, hinit, front, c, name, tail, ht, hc, hname, htail⟩ := h
  obtain ⟨x, hx⟩ : ∃ x, x = f.toMemberHead.text ++ (f.before ++ ['=']) := ⟨_, rfl⟩
  have htext : f.text = (x ++ front) ++ c :: (name ++ tail) := by
    have hending : f.ending = f.before ++ '=' :: (t ++ [';']) := by
      rw [ending, Option.mem_def.1 hinit]
      simp
    rw [text, hending, ht, hx]
    simp
  have htrimmed : IsTrimmed x := by
    refine ⟨by rw [hx]; exact f.beginsVisible_text isName_fieldModifiers _, fun d hd => ?_⟩
    rw [hx, ← List.append_assoc, List.getLast?_concat] at hd
    obtain rfl := Option.some.inj hd
    decide
  obtain ⟨d, hd⟩ := List.exists_mem_of_ne_nil _ f.isGap.ne_nil
  have hmem : d ∈ trim (x ++ front) := by
    rw [trim_trimmed_append htrimmed (by simp [hx])]
    refine List.mem_append_left _ ?_
    simp [hx, MemberHead.text, hd]
  obtain ⟨u, g, w, hw, hg, hword⟩ :=
    exists_lastWord hmem (f.isGap.blanks d hd) (isTrimmed_trim _).last
  obtain ⟨l, r, hsplit, -, hr⟩ := exists_trim (x ++ front)
  refine ⟨w, name, l ++ u, [g], r ++ [c], tail, ?_, ⟨by simp, by simpa [AreBlanks] using hg⟩, hword,
    ⟨by simp, areBlanks_append.2 ⟨hr, by simpa [AreBlanks] using hc⟩⟩, hname,
    isMethodTail_iff.2 htail⟩
  rw [htext, hsplit, hw]
  simp

/-- A method is found on the line exactly if the initializer holds a call. -/
theorem methodOn?_text :
    (f.InitializerHoldsCall → ∃ name type, methodOn? f.text = some (.method name type)) ∧
      (¬ f.InitializerHoldsCall → methodOn? f.text = none) := by
  constructor
  · intro h
    obtain ⟨type, name, hspelled⟩ := f.exists_spelledOn h
    obtain ⟨member, hfound⟩ := exists_leftmost?_of_spelledOn
      (fun t ht => (isMethodTail_iff.1 ht).head) hspelled
    exact ⟨member.2, member.1, by rw [methodOn?, hfound]; rfl⟩
  · refine fun h => Option.eq_none_iff_forall_not_mem.2 fun d hd => h ?_
    obtain ⟨member, hfound, -⟩ := Option.map_eq_some_iff.1 hd
    exact f.initializerHoldsCall_of_spelledOn (spelledOn_of_leftmost? hfound)

end FieldText

/-! ### The leftmost field -/

theorem isFieldTail_blanks {b : Text} (hb : AreBlanks b) (t : Text) :
    isFieldTail (b ++ t) = isFieldTail t := by
  rw [isFieldTail, trimLeft_append_blanks hb, isFieldTail]

theorem isFieldTail_cons {c : Char} (hc : isBlank c = false) (t : Text) :
    isFieldTail (c :: t) = true ↔ c = ';' ∨ c = '=' ∧ ';' ∈ t := by
  rw [isFieldTail, (beginsVisible_cons hc t).trimLeft_eq]
  split
  · next heq => simp [(List.cons.inj heq).1]
  · next heq => simp [(List.cons.inj heq).1, (List.cons.inj heq).2]
  · next hsemicolon hequals =>
      simp only [Bool.false_eq_true, false_iff, not_or, not_and]
      exact ⟨fun h => hsemicolon t (by rw [h]), fun h => absurd (by rw [h]) (hequals t)⟩

theorem isFieldTail_name {w : Text} (hw : IsName w) (t : Text) : ¬ isFieldTail (w ++ t) = true := by
  intro htail
  obtain ⟨c, w, rfl⟩ := List.exists_cons_of_ne_nil hw.ne_nil
  have hnot := (isFieldTail_iff.1 htail).head c rfl
  rw [hw.word c List.mem_cons_self] at hnot
  cases hnot

theorem FieldEnd.semicolon_mem {t : Text} (h : FieldEnd t) : ';' ∈ t := by
  obtain ⟨before, mark, rest, rfl, -, rfl | ⟨-, hmem⟩⟩ := h
  · simp
  · simp [hmem]

/-- What is left of a line behind its modifiers: a type, a name and the end of a field. -/
structure IsFieldRest (type name x : Text) : Prop where
  isWord : IsWord type
  isName : IsName name
  spelled : ∃ gap tail, x = type ++ (gap ++ (name ++ tail)) ∧ IsGap gap ∧ FieldEnd tail

namespace IsFieldRest

variable {type name x : Text} (hx : IsFieldRest type name x)

include hx

theorem beginsVisible : BeginsVisible x := by
  obtain ⟨gap, tail, rfl, -, -⟩ := hx.spelled
  exact hx.isWord.beginsVisible _

theorem memberHere?_eq : memberHere? isFieldTail x = some (type, name) := by
  obtain ⟨gap, tail, rfl, hgap, hend⟩ := hx.spelled
  rw [memberHere?_word hx.isWord hgap (hx.isName.isWord.beginsVisible tail),
    name?_append hx.isName hend.head, Option.bind_some, if_pos (isFieldTail_iff.2 hend)]

/-- From a break on, a type is the end of a field. -/
theorem isFieldTail_break {w v : Text} {c : Char} (htype : type = w ++ c :: v) :
    ∃ rest, x = w ++ c :: rest ∧ (isFieldTail (c :: rest) = true ↔ c = ';' ∨ c = '=') := by
  obtain ⟨gap, tail, rfl, -, hend⟩ := hx.spelled
  have hc : isBlank c = false := hx.isWord.visible c (by simp [htype])
  refine ⟨v ++ (gap ++ (name ++ tail)), by simp [htype], ?_⟩
  rw [isFieldTail_cons hc]
  simp [hend.semicolon_mem]

theorem isFieldTail_iff_breaksAfter : isFieldTail x = true ↔ BreaksAfter type [] := by
  obtain ⟨c, v, htype⟩ := List.exists_cons_of_ne_nil hx.isWord.ne_nil
  obtain ⟨rest, rfl, htail⟩ := hx.isFieldTail_break (w := []) htype
  rw [List.nil_append, htail, BreaksAfter, htype]
  simp

/-- A name is read off the type only up to a break. -/
theorem breaksAfter_of_name? {word rest : Text} (hname : name? x = some (word, rest))
    (htail : isFieldTail rest = true) : BreaksAfter type word := by
  obtain ⟨heq, hword⟩ := exists_of_name? hname
  obtain ⟨gap, tail, rfl, hgap, -⟩ := hx.spelled
  refine ⟨hword.word, ?_⟩
  have hbehind : ¬ isFieldTail (gap ++ (name ++ tail)) = true := by
    rw [isFieldTail_blanks hgap.blanks]
    exact isFieldTail_name hx.isName tail
  rcases List.append_eq_append_iff.1 heq with ⟨w, rfl, hw⟩ | ⟨v, rfl, rfl⟩
  · -- a name ends at the blanks behind the type
    cases w with
    | nil => exact absurd htail (by rwa [← List.nil_append rest, ← hw])
    | cons c w =>
        obtain ⟨d, gap, rfl⟩ := List.exists_cons_of_ne_nil hgap.ne_nil
        obtain ⟨rfl, -⟩ := List.cons.inj hw
        have hnot := not_isWordChar_of_isBlank (hgap.blanks d List.mem_cons_self)
        rw [hword.word d (by simp)] at hnot
        cases hnot
  · cases v with
    | nil => exact absurd htail (by simpa using hbehind)
    | cons c v =>
        have hc : isBlank c = false := hx.isWord.visible c (by simp)
        refine ⟨c, v, rfl, ?_⟩
        rw [List.cons_append, isFieldTail_cons hc] at htail
        exact htail.imp_right And.left

theorem name?_of_breaksAfter {word : Text} (hne : word ≠ []) (hbreak : BreaksAfter type word) :
    ∃ rest, name? x = some (word, rest) ∧ isFieldTail rest = true := by
  obtain ⟨hword, c, v, htype, hc⟩ := hbreak
  obtain ⟨rest, rfl, htail⟩ := hx.isFieldTail_break htype
  refine ⟨c :: rest, name?_append ⟨hne, hword⟩ ?_, htail.2 hc⟩
  intro d hd
  obtain rfl := Option.some.inj hd
  rcases hc with rfl | rfl <;> decide

end IsFieldRest

/-- Where a modifier is followed by another one, it is the type of a field if the end of a
field follows them. -/
theorem memberHere?_two {m g w b t : Text} (hm : IsWord m) (hg : IsGap g) (hw : IsName w)
    (hb : IsGap b) :
    memberHere? isFieldTail (m ++ (g ++ (w ++ (b ++ t)))) =
      if isFieldTail t then some (m, w) else none := by
  have hhead : ∀ c ∈ (b ++ t).head?, isWordChar c = false := by
    obtain ⟨c, more, rfl⟩ := List.exists_cons_of_ne_nil hb.ne_nil
    intro d hd
    obtain rfl := Option.some.inj hd
    exact not_isWordChar_of_isBlank (hb.blanks c List.mem_cons_self)
  rw [memberHere?_word hm hg (hw.isWord.beginsVisible _), name?_append hw hhead, Option.bind_some,
    isFieldTail_blanks hb.blanks]

/-- Modifiers of fields in a row, each with a gap behind it. -/
def AreModifiers (ms : List (Text × Text)) : Prop := ∀ m ∈ ms, m.1 ∈ fieldModifiers ∧ IsGap m.2

section leftmost

variable {type name x : Text} (hx : IsFieldRest type name x)

include hx

theorem beginsVisible_spaced {ms : List (Text × Text)} (hms : AreModifiers ms) :
    BeginsVisible (spaced ms ++ x) := by
  cases ms with
  | nil => exact hx.beginsVisible
  | cons m ms =>
      rw [spaced_cons]
      exact (isName_fieldModifiers _ (hms m List.mem_cons_self).1).isWord.beginsVisible _

/-- A modifier can be taken for the type of a field if it is the last one, with the first
word of the type for a name, or the last but one, with the last one for a name. -/
theorem memberHere?_spaced {m : Text × Text} {ms : List (Text × Text)}
    (hms : AreModifiers (m :: ms)) :
    (∃ word, memberHere? isFieldTail (spaced (m :: ms) ++ x) = some (m.1, word) ∧
      SplitsType (ms.length + 2) type) ∨
    (memberHere? isFieldTail (spaced (m :: ms) ++ x) = none ∧
      (SplitsType (ms.length + 2) type → SplitsType (ms.length + 1) type)) := by
  have hnames : ∀ k ∈ m :: ms, IsName k.1 := fun k hk => isName_fieldModifiers _ (hms k hk).1
  have hm := (hnames m List.mem_cons_self).isWord
  have hgap := (hms m List.mem_cons_self).2
  rw [spaced_cons]
  match ms with
  | [] =>
      -- a name behind the last modifier is read off the type
      rw [spaced_nil, memberHere?_word hm hgap hx.beginsVisible]
      by_cases hsplit : SplitsType 2 type
      · obtain ⟨word, hbreak, hcount⟩ := hsplit
        have hne : word ≠ [] := by
          rintro rfl
          simp at hcount
        obtain ⟨rest, hname, htail⟩ := hx.name?_of_breaksAfter hne hbreak
        exact .inl ⟨word, by rw [hname, Option.bind_some, if_pos htail], word, hbreak, hcount⟩
      · refine .inr ⟨Option.eq_none_iff_forall_not_mem.2 fun member hmember => hsplit ?_,
          fun h => absurd h hsplit⟩
        obtain ⟨⟨word, rest⟩, hname, hmember⟩ := Option.bind_eq_some_iff.1 hmember
        have htail : isFieldTail rest = true := by
          by_contra hnot
          rw [if_neg hnot] at hmember
          cases hmember
        refine ⟨word, hx.breaksAfter_of_name? hname htail, ?_⟩
        rw [if_neg (exists_of_name? hname).2.ne_nil]
  | [k] =>
      obtain ⟨-, hk⟩ := List.forall_mem_cons.1 hms
      -- behind the last two modifiers comes the type, which has to begin with the end
      have hread := memberHere?_two (t := x) hm hgap (hnames k (by simp)) (hk k (by simp)).2
      rw [spaced_cons, spaced_nil, hread]
      by_cases htail : isFieldTail x = true
      · exact .inl ⟨k.1, if_pos htail, [], hx.isFieldTail_iff_breaksAfter.1 htail, le_refl 3⟩
      · refine .inr ⟨if_neg htail, ?_⟩
        rintro ⟨word, hbreak, -⟩
        have hne : word ≠ [] := by
          rintro rfl
          exact htail (hx.isFieldTail_iff_breaksAfter.2 hbreak)
        exact ⟨word, hbreak, by simp [hne]⟩
  | k :: k' :: more =>
      obtain ⟨-, hk⟩ := List.forall_mem_cons.1 hms
      -- a third modifier is no end, and more of them make no difference to `SplitsType`
      have hread := memberHere?_two (t := spaced (k' :: more) ++ x) hm hgap
        (hnames k (by simp)) (hk k (by simp)).2
      rw [spaced_cons, hread, spaced_cons, if_neg (isFieldTail_name (hnames k' (by simp)) _)]
      refine .inr ⟨rfl, ?_⟩
      rintro ⟨word, hbreak, -⟩
      refine ⟨word, hbreak, ?_⟩
      simp only [List.length_cons]
      split <;> omega

/-- The field that is found behind modifiers is the one that was written, unless its type
splits.  Then one of the modifiers is taken for the type. -/
theorem leftmost?_spaced {m : Text × Text} {ms : List (Text × Text)}
    (hms : AreModifiers (m :: ms)) :
    (¬ SplitsType (ms.length + 1) type →
      leftmost? (memberFrom? fieldModifiers isFieldTail) (spaced (m :: ms) ++ x) =
        some (type, name)) ∧
    (SplitsType (ms.length + 1) type → ∃ k ∈ ms, ∃ word,
      leftmost? (memberFrom? fieldModifiers isFieldTail) (spaced (m :: ms) ++ x) =
        some (k.1, word)) := by
  have hknown : ∀ m ∈ fieldModifiers, IsWord m := fun m hm => (isName_fieldModifiers m hm).isWord
  induction ms generalizing m with
  | nil =>
      obtain ⟨hm, -⟩ := List.forall_mem_cons.1 hms
      rw [spaced_cons, spaced_nil, leftmost?_modifier hknown eq_of_suffix_fieldModifiers hm.1
        hm.2 hx.beginsVisible, hx.memberHere?_eq]
      refine ⟨fun _ => rfl, ?_⟩
      rintro ⟨word, -, hcount⟩
      exfalso
      split at hcount <;> simp at hcount
  | cons k ms ih =>
      obtain ⟨hm, hmore⟩ := List.forall_mem_cons.1 hms
      rw [spaced_cons, leftmost?_modifier hknown eq_of_suffix_fieldModifiers hm.1 hm.2
        (beginsVisible_spaced hx hmore)]
      rcases memberHere?_spaced hx hmore with ⟨word, hhere, hsplit⟩ | ⟨hhere, hfewer⟩
      · rw [hhere]
        exact ⟨fun hnot => absurd hsplit hnot, fun _ => ⟨k, List.mem_cons_self, word, rfl⟩⟩
      · rw [hhere, Option.none_or]
        obtain ⟨hwhole, hsplits⟩ := ih hmore
        constructor
        · refine fun hnot => hwhole fun hsplit => hnot ?_
          obtain ⟨word, hbreak, hcount⟩ := hsplit
          exact ⟨word, hbreak, Nat.le_succ_of_le hcount⟩
        · intro hsplit
          obtain ⟨j, hj, word, hfound⟩ := hsplits (hfewer hsplit)
          exact ⟨j, List.mem_cons_of_mem _ hj, word, hfound⟩

end leftmost

/-! ### Fields -/

namespace FieldText

variable (f : FieldText)

/-- The line begins with a letter and is long enough to be no separator. -/
theorem isCode_text : IsCode f.text := by
  obtain ⟨m, ms, hms⟩ := List.exists_cons_of_ne_nil f.isModified
  have hm : IsName m.1 := isName_fieldModifiers _ (f.isModifier m (by simp [hms])).1
  have hword : ∀ c ∈ f.text.head?, isWordChar c = true := by
    intro c hc
    rw [text, MemberHead.text, hms, List.append_assoc, spaced_cons,
      List.head?_append_of_ne_nil _ hm.ne_nil] at hc
    exact hm.word c (List.mem_of_mem_head? hc)
  have hslash : ∀ d, ¬ ['/', d] <+: f.text := by
    rintro d ⟨rest, hrest⟩
    exact absurd (hword '/' (by rw [← hrest]; rfl)) (by decide)
  have hlength : 2 ≤ f.text.length := by
    have hname := List.length_pos_iff.2 f.isName.ne_nil
    simp only [text, ending, MemberHead.text, List.length_append, List.length_singleton]
    omega
  exact isCode_of_length hlength (hslash '/') (hslash '*')

/-- The field on the line, when methods are left aside. -/
theorem fieldOn?_text :
    (¬ SplitsType f.modifiers.length f.type → fieldOn? f.text = some (.field f.name f.type)) ∧
      (SplitsType f.modifiers.length f.type →
        ∃ name type, type ≠ f.type ∧ fieldOn? f.text = some (.field name type)) := by
  obtain ⟨m, ms, hms⟩ := List.exists_cons_of_ne_nil f.isModified
  have hrest : IsFieldRest f.type f.name (f.type ++ (f.gap ++ (f.name ++ f.ending))) :=
    ⟨f.isType.1, f.isName, f.gap, f.ending, rfl, f.isGap, f.fieldEnd_ending⟩
  have htext : f.text = spaced (m :: ms) ++ (f.type ++ (f.gap ++ (f.name ++ f.ending))) := by
    simp [text, MemberHead.text, hms]
  have hmodifiers : AreModifiers (m :: ms) := hms ▸ f.isModifier
  obtain ⟨hwhole, hsplits⟩ := leftmost?_spaced hrest hmodifiers
  rw [hms, List.length_cons, fieldOn?, htext]
  constructor
  · intro hnot
    rw [hwhole hnot]
    rfl
  · intro hsplit
    obtain ⟨k, hk, word, hfound⟩ := hsplits hsplit
    refine ⟨word, k.1, ?_, by rw [hfound]; rfl⟩
    -- a modifier holds nothing that could break a type
    intro heq
    obtain ⟨start, ⟨-, c, v, htype, hc⟩, -⟩ := hsplit
    have hname := isName_fieldModifiers _ (hmodifiers k (List.mem_cons_of_mem _ hk)).1
    have hword := hname.word c (by rw [heq, htype]; simp)
    rcases hc with rfl | rfl <;> exact absurd hword (by decide)

end FieldText

/-- A field on a line of its own is recorded with its name and its type, and no method is,
if its initializer holds no call and its type does not split.  With a call a method is
recorded in its place, and where the type splits a field of another type. -/
theorem step_fieldText (f : FieldText) {p : Progress} {l r : Text} (hl : AreBlanks l)
    (hr : AreBlanks r) (hplace : p.place = .code) (hclasses : p.classes ≠ [])
    (hkeyword : KeywordFree f.text) :
    let recorded (d : Declaration) : Progress :=
      { p with pending := none, classes := record p.classes f.text p.pending d }
    (¬ f.InitializerHoldsCall → ¬ SplitsType f.modifiers.length f.type →
      step p (trim (l ++ (f.text ++ r))) = recorded (.field f.name f.type)) ∧
    (f.InitializerHoldsCall → ∃ name type,
      step p (trim (l ++ (f.text ++ r))) = recorded (.method name type)) ∧
    (¬ f.InitializerHoldsCall → SplitsType f.modifiers.length f.type → ∃ name type,
      type ≠ f.type ∧ step p (trim (l ++ (f.text ++ r))) = recorded (.field name type)) := by
  intro recorded
  rw [trim_append_blanks hl hr, f.isTrimmed_text.trim_eq,
    step_member hplace hclasses f.isCode_text hkeyword]
  obtain ⟨hmethod, hnone⟩ := f.methodOn?_text
  obtain ⟨hwhole, hsplits⟩ := f.fieldOn?_text
  refine ⟨fun hcall hsplit => ?_, fun hcall => ?_, fun hcall hsplit => ?_⟩
  · rw [hnone hcall, hwhole hsplit]
    rfl
  · obtain ⟨name, type, hfound⟩ := hmethod hcall
    exact ⟨name, type, by rw [hfound]; rfl⟩
  · obtain ⟨name, type, hne, hfound⟩ := hsplits hsplit
    exact ⟨name, type, hne, by rw [hnone hcall, hfound]; rfl⟩

/-- A field with single blanks, as it is usually written. -/
def plainField (modifiers : List Text) (type name : Text) (initializer : Option Text)
    (hmodifiers : modifiers ≠ [] ∧ ∀ m ∈ modifiers, m ∈ fieldModifiers)
    (htype : IsWord type ∧ '(' ∉ type ∧ ')' ∉ type) (hname : IsName name)
    (hinitializer : ∀ t ∈ initializer, ';' ∉ t) : FieldText where
  modifiers := modifiers.map fun m => (m, [' '])
  type := type
  gap := [' ']
  name := name
  isModifier := List.forall_mem_map.2 fun m hm => ⟨hmodifiers.2 m hm, isGap_blank⟩
  isType := htype
  isGap := isGap_blank
  isName := hname
  before := initializer.elim [] fun _ => [' ']
  initializer := initializer
  isModified := fun h => hmodifiers.1 (List.map_eq_nil_iff.1 h)
  areBlanks_before := by
    cases initializer with
    | none => exact areBlanks_nil
    | some t => exact isGap_blank.blanks
  isInitializer := hinitializer

/-- A number is a fine initializer, a new object makes a method, and a semicolon in the type
makes a field of another type. -/
theorem step_fieldText_new :
    let counter : TypeDecl := ⟨"Counter".toList, "class".toList, none, [], []⟩
    let p : Progress := ⟨.code, none, [counter]⟩
    (step p (trim "  private int size = 3;".toList)).classes =
        [{ counter with fields := [⟨"size".toList, "int".toList, none⟩] }] ∧
      ((step p (trim "  private Foo f = new Foo();".toList)).classes.map fun c =>
        (c.fields.length, c.methods.length)) = [(0, 1)] ∧
      ∃ type, type ≠ "a;b".toList ∧
        ((step p (trim "  private static a;b c;".toList)).classes.map fun c =>
          c.fields.map Field.typeText) = [[type]] := by
  intro counter p
  have hblanks : AreBlanks "  ".toList := by decide
  refine ⟨?_, ?_, ?_⟩
  · let f := plainField ["private".toList] "int".toList "size".toList (some " 3".toList)
      (by decide) (by decide) (by decide) (by decide)
    have hline : "  private int size = 3;".toList = "  ".toList ++ (f.text ++ []) := by decide
    have hcall : ¬ f.InitializerHoldsCall := by
      rintro ⟨t, ht, hcall⟩
      obtain rfl := Option.some.inj ht
      exact not_holdsCall (by decide) hcall
    rw [hline, (step_fieldText f (p := p) hblanks areBlanks_nil rfl (by simp [p])
      (by decide +kernel)).1 hcall (not_splitsType (by decide) (by decide) _)]
    rfl
  · let f := plainField ["private".toList] "Foo".toList "f".toList (some " new Foo()".toList)
      (by decide) (by decide) (by decide) (by decide)
    have hline : "  private Foo f = new Foo();".toList = "  ".toList ++ (f.text ++ []) := by decide
    have hcall : f.InitializerHoldsCall :=
      ⟨_, rfl, " new".toList, ' ', "Foo".toList, "();".toList, by decide, by decide, by decide,
        [], [], [], ';', [], by decide, by decide, by decide, by decide, .inr rfl⟩
    obtain ⟨name, type, hstep⟩ := (step_fieldText f (p := p) hblanks areBlanks_nil rfl
      (by simp [p]) (by decide +kernel)).2.1 hcall
    rw [hline, hstep]
    rfl
  · let f := plainField ["private".toList, "static".toList] "a;b".toList "c".toList none
      (by decide) (by decide) (by decide) (by decide)
    have hline : "  private static a;b c;".toList = "  ".toList ++ (f.text ++ []) := by decide
    have hcall : ¬ f.InitializerHoldsCall := by
      rintro ⟨t, ht, -⟩
      cases ht
    have hsplit : SplitsType 2 f.type :=
      ⟨"a".toList, ⟨(by decide : IsName "a".toList).word, ';', "b".toList, by decide, .inl rfl⟩,
        by decide⟩
    obtain ⟨name, type, hne, hstep⟩ := (step_fieldText f (p := p) hblanks areBlanks_nil rfl
      (by simp [p]) (by decide +kernel)).2.2 hcall hsplit
    refine ⟨type, hne, ?_⟩
    rw [hline, hstep]
    rfl

/-- Two fields that are not recorded as they are written: a new object in the initializer
makes a method of it, and with a semicolon in its type the second modifier becomes the type
of a field. -/
theorem step_misses_field :
    let counter : TypeDecl := ⟨"Counter".toList, "class".toList, none, [], []⟩
    let p : Progress := ⟨.code, none, [counter]⟩
    let call := plainField ["private".toList] "Foo".toList "f".toList (some " new Foo()".toList)
      (by decide) (by decide) (by decide) (by decide)
    let split := plainField ["private".toList, "static".toList] "a;b".toList "c".toList none
      (by decide) (by decide) (by decide) (by decide)
    (KeywordFree call.text ∧ (step p (trim call.text)).classes = [{ counter with
        methods := [.make "Foo".toList "private Foo f = new Foo();".toList "new".toList none] }]) ∧
      KeywordFree split.text ∧ (step p (trim split.text)).classes = [{ counter with
        fields := [⟨"a".toList, "static".toList, none⟩] }] := by
  decide +kernel

end DocPress.Javadoc
