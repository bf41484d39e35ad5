import DocPress.Proofs.Javadoc.Step
import DocPress.Proofs.Text.Words
import Mathlib.Data.List.Infix

/-!
# Members on a line

A member is found on a line where blanks, a type, blanks, a name and a fitting end stand
in a row.  `spelledOn_of_leftmost?` and `exists_leftmost?_of_spelledOn` say that this is
all: whichever way the search goes, what it finds is spelled out on the line, and where
something is spelled out it finds something.  What it finds first when several members
are spelled out on one line depends on the modifiers, see `leftmost?_modifier`.
-/

namespace DocPress.Javadoc

open Text

/-! ### The parts of a member -/

theorem afterBlanks?_gap {gap rest : Text} (hgap : IsGap gap) (hrest : BeginsVisible rest) :
    afterBlanks? (gap ++ rest) = some rest := by
  cases gap with
  | nil => exact absurd rfl hgap.ne_nil
  | cons c gap =>
      obtain ⟨hc, hblanks⟩ := List.forall_mem_cons.1 hgap.blanks
      rw [List.cons_append, afterBlanks?, if_pos hc, trimLeft_gap hblanks hrest]

theorem exists_of_afterBlanks? {t rest : Text} (h : afterBlanks? t = some rest) :
    ∃ gap, t = gap ++ rest ∧ IsGap gap ∧ BeginsVisible rest := by
  cases t with
  | nil => cases h
  | cons c t =>
      rw [afterBlanks?] at h
      split at h
      · next hc =>
          obtain rfl := Option.some.inj h
          obtain ⟨l, hl, heq⟩ := exists_trimLeft t
          refine ⟨c :: l, congrArg (c :: ·) heq, ⟨by simp, ?_⟩, beginsVisible_trimLeft t⟩
          exact List.forall_mem_cons.2 ⟨hc, hl⟩
      · cases h

theorem afterBlanks?_eq_none {t : Text} (h : BeginsVisible t) : afterBlanks? t = none := by
  cases t with
  | nil => rfl
  | cons c t => rw [afterBlanks?, h c rfl, if_neg Bool.false_ne_true]

theorem exists_of_token? {t token rest : Text} (h : token? t = some (token, rest)) :
    t = token ++ rest ∧ IsWord token := by
  rw [token?] at h
  split at h
  · cases h
  · next hne =>
      obtain ⟨rfl, rfl⟩ := Prod.mk.inj (Option.some.inj h)
      refine ⟨List.takeWhile_append_dropWhile.symm, hne, fun c hc => ?_⟩
      simpa using List.mem_takeWhile_imp hc

/-- A token goes on to the next blank. -/
theorem token?_gap {token gap : Text} (htoken : IsWord token) (hgap : IsGap gap) (rest : Text) :
    token? (token ++ (gap ++ rest)) = some (token, gap ++ rest) := by
  have hvisible : ∀ c ∈ token, (!isBlank c) = true := fun c hc => by simp [htoken.visible c hc]
  have hstart : ∀ c ∈ (gap ++ rest).head?, (!isBlank c) = false := by
    intro c hc
    rw [List.head?_append_of_ne_nil _ hgap.ne_nil] at hc
    simp [hgap.blanks c (List.mem_of_mem_head? hc)]
  obtain ⟨htake, hdrop⟩ := takeWhile_run hvisible hstart
  rw [token?, htake, hdrop]
  cases token with
  | nil => exact absurd rfl htoken.ne_nil
  | cons c token => rfl

theorem exists_of_name? {t name rest : Text} (h : name? t = some (name, rest)) :
    t = name ++ rest ∧ IsName name := by
  rw [name?] at h
  split at h
  · cases h
  · next hne =>
      obtain ⟨rfl, rfl⟩ := Prod.mk.inj (Option.some.inj h)
      exact ⟨List.takeWhile_append_dropWhile.symm, hne, fun c hc => List.mem_takeWhile_imp hc⟩

theorem not_isWordChar_of_name? {t name rest : Text} (h : name? t = some (name, rest)) :
    ∀ c ∈ rest.head?, isWordChar c = false := by
  rw [name?] at h
  split at h
  · cases h
  · obtain ⟨-, rfl⟩ := Prod.mk.inj (Option.some.inj h)
    exact head?_dropWhile_eq_false isWordChar t

/-- A name goes on to the next character that is no word character. -/
theorem name?_append {name rest : Text} (hname : IsName name)
    (hrest : ∀ c ∈ rest.head?, isWordChar c = false) :
    name? (name ++ rest) = some (name, rest) := by
  obtain ⟨htake, hdrop⟩ := takeWhile_run hname.word hrest
  rw [name?, htake, hdrop]
  cases name with
  | nil => exact absurd rfl hname.ne_nil
  | cons c name => rfl

/-! ### The ends of methods and fields -/

/-- Parentheses without a closing one inside, then an opening brace or a semicolon.  Blanks
may stand before and behind the parentheses. -/
def MethodEnd (t : Text) : Prop :=
  ∃ before arguments after mark rest,
    t = before ++ '(' :: (arguments ++ ')' :: (after ++ mark :: rest)) ∧ AreBlanks before ∧
      ')' ∉ arguments ∧ AreBlanks after ∧ (mark = '\x7b' ∨ mark = ';')

/-- A semicolon, or an equals sign with a semicolon somewhere behind it.  Blanks may stand
before. -/
def FieldEnd (t : Text) : Prop :=
  ∃ before mark rest, t = before ++ mark :: rest ∧ AreBlanks before ∧
    (mark = ';' ∨ mark = '=' ∧ ';' ∈ rest)

theorem beginsVisible_cons {c : Char} (hc : isBlank c = false) (t : Text) :
    BeginsVisible (c :: t) := by
  intro d hd
  obtain rfl := Option.some.inj hd
  exact hc

theorem isMethodTail_iff {t : Text} : isMethodTail t = true ↔ MethodEnd t := by
  constructor
  · intro h
    obtain ⟨before, hbefore, ht⟩ := exists_trimLeft t
    rw [isMethodTail] at h
    split at h
    · next inner hinner =>
        split at h
        · next behind hbehind =>
            split at h
            · next mark rest hmark =>
                obtain ⟨after, hafter, hbehind'⟩ := exists_trimLeft behind
                have hclose : inner = inner.takeWhile (· != ')') ++ ')' :: behind := by
                  rw [← hbehind, List.takeWhile_append_dropWhile]
                refine ⟨before, inner.takeWhile (· != ')'), after, mark, rest, ?_, hbefore, ?_,
                  hafter, by simpa using h⟩
                · rw [← hmark, ← hbehind', ← hclose, ← hinner, ← ht]
                · intro hmem
                  simpa using List.mem_takeWhile_imp hmem
            · cases h
        · cases h
    · cases h
  · rintro ⟨before, arguments, after, mark, rest, rfl, hbefore, harguments, hafter, hmark⟩
    have hrun : ∀ c ∈ arguments, (c != ')') = true := by
      intro c hc
      simp only [bne_iff_ne, ne_eq]
      rintro rfl
      exact harguments hc
    have hdrop := (takeWhile_run (t := ')' :: (after ++ mark :: rest)) hrun (by simp)).2
    have hvisible : isBlank mark = false := by rcases hmark with rfl | rfl <;> decide
    rw [isMethodTail, trimLeft_gap hbefore (beginsVisible_cons (by decide) _)]
    simp only [hdrop]
    rw [trimLeft_gap hafter (beginsVisible_cons hvisible _)]
    simpa using hmark

theorem isFieldTail_iff {t : Text} : isFieldTail t = true ↔ FieldEnd t := by
  constructor
  · intro h
    obtain ⟨before, hbefore, ht⟩ := exists_trimLeft t
    rw [isFieldTail] at h
    split at h
    · next rest hrest => exact ⟨before, ';', rest, by rw [← hrest, ← ht], hbefore, .inl rfl⟩
    · next rest hrest =>
        exact ⟨before, '=', rest, by rw [← hrest, ← ht], hbefore, .inr ⟨rfl, by simpa using h⟩⟩
    · cases h
  · rintro ⟨before, mark, rest, rfl, hbefore, hmark⟩
    have hvisible : isBlank mark = false := by rcases hmark with rfl | ⟨rfl, -⟩ <;> decide
    rw [isFieldTail, trimLeft_gap hbefore (beginsVisible_cons hvisible _)]
    rcases hmark with rfl | ⟨rfl, hmem⟩
    · rfl
    · simpa using hmem

/-- No word goes on into blanks and a character that is no word character. -/
theorem not_isWordChar_head {before rest : Text} {mark : Char} (hbefore : AreBlanks before)
    (hmark : isWordChar mark = false) :
    ∀ c ∈ (before ++ mark :: rest).head?, isWordChar c = false := by
  intro c hc
  cases before with
  | nil =>
      obtain rfl := Option.some.inj hc
      exact hmark
  | cons d before =>
      obtain rfl := Option.some.inj hc
      exact not_isWordChar_of_isBlank (hbefore d List.mem_cons_self)

theorem MethodEnd.head {t : Text} (h : MethodEnd t) : ∀ c ∈ t.head?, isWordChar c = false := by
  obtain ⟨before, arguments, after, mark, rest, rfl, hbefore, -⟩ := h
  exact not_isWordChar_head hbefore (by decide)

theorem FieldEnd.head {t : Text} (h : FieldEnd t) : ∀ c ∈ t.head?, isWordChar c = false := by
  obtain ⟨before, mark, rest, rfl, hbefore, hmark⟩ := h
  exact not_isWordChar_head hbefore (by rcases hmark with rfl | ⟨rfl, -⟩ <;> decide)

/-! ### Members -/

section member

variable {isTail : Text → Bool} {known : List Text}

/-- What is read at the beginning of a text that begins with a type. -/
theorem memberHere?_word {type gap rest : Text} (htype : IsWord type) (hgap : IsGap gap)
    (hrest : BeginsVisible rest) :
    memberHere? isTail (type ++ (gap ++ rest)) =
      (name? rest).bind fun p => if isTail p.2 then some (type, p.1) else none := by
  rw [memberHere?, token?_gap htype hgap]
  change (afterBlanks? (gap ++ rest)).bind _ = _
  rw [afterBlanks?_gap hgap hrest]
  rfl

theorem exists_of_memberHere? {t type name : Text}
    (h : memberHere? isTail t = some (type, name)) :
    ∃ gap tail, t = type ++ (gap ++ (name ++ tail)) ∧ IsWord type ∧ IsGap gap ∧ IsName name ∧
      isTail tail = true := by
  simp only [memberHere?, Option.bind_eq_bind, Option.bind_eq_some_iff] at h
  obtain ⟨⟨token, behind⟩, htoken, rest, hrest, ⟨word, tail⟩, hword, h⟩ := h
  obtain ⟨rfl, htype⟩ := exists_of_token? htoken
  obtain ⟨gap, rfl, hgap, -⟩ := exists_of_afterBlanks? hrest
  obtain ⟨rfl, hname⟩ := exists_of_name? hword
  split at h
  · next htail =>
      obtain ⟨rfl, rfl⟩ := Prod.mk.inj (Option.some.inj h)
      exact ⟨gap, tail, rfl, htype, hgap, hname, htail⟩
  · cases h

/-- A member on a line: blanks, a type, blanks, a name and an end that fits. -/
def SpelledOn (isTail : Text → Bool) (line type name : Text) : Prop :=
  ∃ front gap between tail,
    line = front ++ (gap ++ (type ++ (between ++ (name ++ tail)))) ∧ IsGap gap ∧ IsWord type ∧
      IsGap between ∧ IsName name ∧ isTail tail = true

theorem exists_of_memberFrom? {t : Text} {member : Text × Text}
    (h : memberFrom? known isTail t = some member) :
    ∃ front gap rest, t = front ++ (gap ++ rest) ∧ IsGap gap ∧
      memberHere? isTail rest = some member := by
  rw [memberFrom?, Option.or_eq_some_iff] at h
  rcases h with h | ⟨-, h⟩
  · obtain ⟨m, -, hm⟩ := List.exists_of_findSome?_eq_some h
    simp only [Option.bind_eq_bind, Option.bind_eq_some_iff] at hm
    obtain ⟨behind, hbehind, rest, hrest, hhere⟩ := hm
    obtain ⟨l, -, ht⟩ := exists_trimLeft t
    obtain ⟨gap, rfl, hgap, -⟩ := exists_of_afterBlanks? hrest
    refine ⟨l ++ m, gap, rest, ?_, hgap, hhere⟩
    rw [ht, eq_append_of_after? hbehind, List.append_assoc]
  · rw [Option.bind_eq_bind, Option.bind_eq_some_iff] at h
    obtain ⟨rest, hrest, hhere⟩ := h
    obtain ⟨gap, rfl, hgap, -⟩ := exists_of_afterBlanks? hrest
    exact ⟨[], gap, rest, rfl, hgap, hhere⟩

/-- What is found on a line is spelled out there. -/
theorem spelledOn_of_leftmost? {line type name : Text}
    (h : leftmost? (memberFrom? known isTail) line = some (type, name)) :
    SpelledOn isTail line type name := by
  obtain ⟨u, v, rfl, hv⟩ := exists_of_leftmost? h
  obtain ⟨front, gap, rest, rfl, hgap, hhere⟩ := exists_of_memberFrom? hv
  obtain ⟨between, tail, rfl, htype, hbetween, hname, htail⟩ := exists_of_memberHere? hhere
  exact ⟨u ++ front, gap, between, tail, by simp, hgap, htype, hbetween, hname, htail⟩

/-- With one opening parenthesis on the line, the last words before it are the type and the
name of the only method that is spelled out there. -/
theorem exists_words_of_spelledOn {line type name before after : Text}
    (h : SpelledOn isMethodTail line type name) (hline : line = before ++ '(' :: after)
    (hbefore : '(' ∉ before) (hafter : '(' ∉ after) :
    ∃ front gap rest, before = front ++ (gap ++ rest) ∧ IsGap gap ∧
      words before = words front ++ [type, name] := by
  obtain ⟨front, gap, between, tail, heq, hgap, htype, hbetween, hname, htail⟩ := h
  obtain ⟨blanks, arguments, behind, mark, rest, rfl, hblanks, -⟩ := isMethodTail_iff.1 htail
  have hsplit : before ++ '(' :: after =
      (front ++ (gap ++ (type ++ (between ++ (name ++ blanks))))) ++
        '(' :: (arguments ++ ')' :: (behind ++ mark :: rest)) := by
    rw [← hline, heq]
    simp
  obtain ⟨rfl, -⟩ := (List.append_cons_inj_of_notMem hbefore hafter).1 hsplit
  refine ⟨front, gap, _, rfl, hgap, ?_⟩
  rw [hgap.words_append, hbetween.words_append, htype.words_eq, words_append_right _ hblanks,
    hname.isWord.words_eq]
  rfl

theorem leftmost?_append_isSome {α : Type} {here? : Text → Option α} (u : Text) {v : Text}
    (h : (here? v).isSome) : (leftmost? here? (u ++ v)).isSome := by
  induction u with
  | nil =>
      cases v with
      | nil => exact h
      | cons c v => simp [leftmost?, h]
  | cons c u ih => simp [leftmost?, ih]

/-- Where a member is spelled out, one is found. -/
theorem exists_leftmost?_of_spelledOn {line type name : Text}
    (hhead : ∀ t, isTail t = true → ∀ c ∈ t.head?, isWordChar c = false)
    (h : SpelledOn isTail line type name) :
    ∃ member, leftmost? (memberFrom? known isTail) line = some member := by
  obtain ⟨front, gap, between, tail, rfl, hgap, htype, hbetween, hname, htail⟩ := h
  refine Option.isSome_iff_exists.1 (leftmost?_append_isSome front ?_)
  have hhere : memberHere? isTail (type ++ (between ++ (name ++ tail))) = some (type, name) := by
    rw [memberHere?_word htype hbetween (hname.isWord.beginsVisible tail),
      name?_append hname (hhead tail htail), Option.bind_some, if_pos htail]
  rw [memberFrom?, afterBlanks?_gap hgap (htype.beginsVisible _)]
  simp [hhere]

/-! ### Members behind modifiers -/

/-- Only one of the known words can give an answer. -/
theorem findSome?_eq_ite {α : Type} {w : Text} {answer : Option α} {f : Text → Option α}
    (hf : ∀ m ∈ known, f m = if m = w then answer else none) :
    known.findSome? f = if w ∈ known then answer else none := by
  induction known with
  | nil => rfl
  | cons m known ih =>
      obtain ⟨hm, hmore⟩ := List.forall_mem_cons.1 hf
      rw [List.findSome?_cons, hm, ih hmore]
      by_cases heq : m = w
      · cases answer <;> simp [heq]
      · simp [heq, Ne.symm heq]

/-- At a word, only the reading behind a modifier is possible. -/
theorem memberFrom?_word {w gap rest : Text} (hknown : ∀ m ∈ known, IsWord m) (hw : IsWord w)
    (hgap : IsGap gap) (hrest : BeginsVisible rest) :
    memberFrom? known isTail (w ++ (gap ++ rest)) =
      if w ∈ known then memberHere? isTail rest else none := by
  have hstart := hw.beginsVisible (gap ++ rest)
  have heach : ∀ m ∈ known, ((after? m (w ++ (gap ++ rest))).bind fun behind =>
      (afterBlanks? behind).bind (memberHere? isTail)) =
        if m = w then memberHere? isTail rest else none := by
    intro m hm
    split
    · next heq =>
        rw [heq, after?_append, Option.bind_some, afterBlanks?_gap hgap hrest, Option.bind_some]
    · next hne =>
        -- a gap behind another modifier would end the word there
        refine Option.eq_none_iff_forall_not_mem.2 fun member hmember => hne ?_
        obtain ⟨behind, hbehind, hmember⟩ := Option.bind_eq_some_iff.1 hmember
        obtain ⟨rest', hrest', -⟩ := Option.bind_eq_some_iff.1 hmember
        obtain ⟨gap', rfl, hgap', -⟩ := exists_of_afterBlanks? hrest'
        have htoken := token?_gap hw hgap rest
        rw [eq_append_of_after? hbehind, token?_gap (hknown m hm) hgap'] at htoken
        exact (Prod.mk.inj (Option.some.inj htoken)).1
  rw [memberFrom?, hstart.trimLeft_eq, afterBlanks?_eq_none hstart]
  exact (Option.or_none ..).trans (findSome?_eq_ite heach)

/-- In a gap, the reading behind the gap comes last. -/
theorem memberFrom?_gap {gap rest : Text} (hgap : IsGap gap) (hrest : BeginsVisible rest) :
    memberFrom? known isTail (gap ++ rest) =
      (memberFrom? known isTail rest).or (memberHere? isTail rest) := by
  rw [memberFrom?, memberFrom?, trimLeft_gap hgap.blanks hrest, hrest.trimLeft_eq,
    afterBlanks?_gap hgap hrest, afterBlanks?_eq_none hrest]
  simp

theorem or_leftmost? {α : Type} (here? : Text → Option α) (t : Text) :
    (here? t).or (leftmost? here? t) = leftmost? here? t := by
  cases t with
  | nil => rw [leftmost?, Option.or_self]
  | cons c t => rw [leftmost?, ← Option.or_assoc, Option.or_self]

/-- Where nothing is read behind a gap, nothing is found in it. -/
theorem leftmost?_gap {gap rest : Text} (hgap : AreBlanks gap) (hrest : BeginsVisible rest)
    (hhere : memberHere? isTail rest = none) :
    leftmost? (memberFrom? known isTail) (gap ++ rest) =
      leftmost? (memberFrom? known isTail) rest := by
  induction gap with
  | nil => rfl
  | cons c gap ih =>
      have hread : memberFrom? known isTail (c :: (gap ++ rest)) =
          memberFrom? known isTail rest := by
        rw [← List.cons_append, memberFrom?_gap ⟨by simp, hgap⟩ hrest, hhere, Option.or_none]
      rw [List.cons_append, leftmost?, hread, ih (List.forall_mem_cons.1 hgap).2, or_leftmost?]

/-- Where no end of a word is a modifier, nothing is found in it. -/
theorem leftmost?_word {w gap rest : Text} (hknown : ∀ m ∈ known, IsWord m)
    (hw : ∀ c ∈ w, isBlank c = false) (hends : ∀ m ∈ known, ¬ m <:+ w) (hgap : IsGap gap)
    (hrest : BeginsVisible rest) :
    leftmost? (memberFrom? known isTail) (w ++ (gap ++ rest)) =
      leftmost? (memberFrom? known isTail) (gap ++ rest) := by
  induction w with
  | nil => rfl
  | cons c w ih =>
      have hread : memberFrom? known isTail (c :: (w ++ (gap ++ rest))) = none := by
        rw [← List.cons_append, memberFrom?_word hknown ⟨by simp, hw⟩ hgap hrest,
          if_neg fun hmem => hends _ hmem (List.suffix_refl _)]
      rw [List.cons_append, leftmost?, hread, Option.none_or,
        ih (List.forall_mem_cons.1 hw).2 fun m hm h => hends m hm (h.trans (List.suffix_cons c w))]

/-- Behind a modifier, the member that begins there comes first, and then what is found
further on. -/
theorem leftmost?_modifier {m gap rest : Text} (hknown : ∀ m ∈ known, IsWord m)
    (hends : ∀ m ∈ known, ∀ w ∈ known, w <:+ m → w = m) (hm : m ∈ known) (hgap : IsGap gap)
    (hrest : BeginsVisible rest) :
    leftmost? (memberFrom? known isTail) (m ++ (gap ++ rest)) =
      (memberHere? isTail rest).or (leftmost? (memberFrom? known isTail) rest) := by
  have hword := hknown m hm
  have hread : memberFrom? known isTail (m ++ (gap ++ rest)) = memberHere? isTail rest := by
    rw [memberFrom?_word hknown hword hgap hrest, if_pos hm]
  cases m with
  | nil => exact absurd rfl hword.ne_nil
  | cons c w =>
      have hshorter : ∀ m ∈ known, ¬ m <:+ w := by
        intro m hmem hsuffix
        have heq := hends _ hm m hmem (hsuffix.trans (List.suffix_cons c w))
        have hle := hsuffix.length_le
        rw [heq, List.length_cons] at hle
        omega
      rw [List.cons_append, leftmost?, ← List.cons_append, hread,
        leftmost?_word hknown (List.forall_mem_cons.1 hword.visible).2 hshorter hgap hrest]
      cases hhere : memberHere? isTail rest with
      | some member => rfl
      | none => rw [leftmost?_gap hgap.blanks hrest hhere]

end member

end DocPress.Javadoc
