import DocPress.Proofs.Javadoc.Grouping
import DocPress.Proofs.Javadoc.Member
import Mathlib.Data.List.Infix

/-!
# Methods on lines of their own

A method is written as modifiers, a type, a name, parameters in parentheses and a brace or
a semicolon.  On such a line stands one opening parenthesis, so a member spelled out there
ends before it, and comparing words shows that it is the method that was written
(`eq_of_spelledOn`).  A member needs blanks before its type, and on a trimmed line only a
modifier can stand before them: the method is found if it has a modifier, and without one
no method is found (`step_methodText`).
-/

namespace DocPress.Javadoc

open Text

/-- A line that holds none of the words that declare a type. -/
def KeywordFree (line : Text) : Prop := ∀ keyword ∈ typeKeywords, ¬ keyword.1 <:+: line

instance (line : Text) : Decidable (KeywordFree line) := List.decidableBAll _ _

/-- The beginning of a member: modifiers, a type and a name, with blanks behind each
modifier and behind the type. -/
structure MemberHead (known : List Text) where
  modifiers : List (Text × Text)
  type : Text
  gap : Text
  name : Text
  isModifier : ∀ m ∈ modifiers, m.1 ∈ known ∧ IsGap m.2
  isType : IsWord type ∧ '(' ∉ type ∧ ')' ∉ type
  isGap : IsGap gap
  isName : IsName name

/-- A method as it is written on a line. -/
structure MethodText extends MemberHead methodModifiers where
  before : Text
  parameters : Text
  after : Text
  mark : Char
  areBlanks_before : AreBlanks before
  isParameters : '(' ∉ parameters ∧ ')' ∉ parameters
  areBlanks_after : AreBlanks after
  isMark : mark = '\x7b' ∨ mark = ';'

/-! ### Heads of members -/

theorem isName_methodModifiers : ∀ m ∈ methodModifiers, IsName m := by decide

/-- Words in a row, each with the blanks behind it. -/
def spaced (ms : List (Text × Text)) : Text := ms.flatMap fun m => m.1 ++ m.2

theorem spaced_nil (t : Text) : spaced [] ++ t = t := rfl

theorem spaced_cons (m : Text × Text) (ms : List (Text × Text)) (t : Text) :
    spaced (m :: ms) ++ t = m.1 ++ (m.2 ++ (spaced ms ++ t)) := by
  simp [spaced]

namespace MemberHead

variable {known : List Text}

def text (h : MemberHead known) : Text := spaced h.modifiers ++ (h.type ++ (h.gap ++ h.name))

variable (h : MemberHead known) (hknown : ∀ m ∈ known, IsName m)

include hknown

theorem mem_text {c : Char} (hc : c ∈ h.text) :
    isWordChar c = true ∨ isBlank c = true ∨ c ∈ h.type := by
  simp only [text, spaced, List.mem_append, List.mem_flatMap] at hc
  rcases hc with ⟨m, hm, hc | hc⟩ | hc | hc | hc
  · exact .inl ((hknown m.1 (h.isModifier m hm).1).word c hc)
  · exact .inr (.inl ((h.isModifier m hm).2.blanks c hc))
  · exact .inr (.inr hc)
  · exact .inr (.inl (h.isGap.blanks c hc))
  · exact .inl (h.isName.word c hc)

theorem parenthesis_notMem {b : Text} (hb : AreBlanks b) : '(' ∉ h.text ++ b := by
  intro hmem
  rcases List.mem_append.1 hmem with hmem | hmem
  · rcases h.mem_text hknown hmem with hword | hblank | htype
    · exact absurd hword (by decide)
    · exact absurd hblank (by decide)
    · exact h.isType.2.1 htype
  · exact absurd (hb _ hmem) (by decide)

theorem words_text : words h.text = h.modifiers.map Prod.fst ++ [h.type, h.name] := by
  have hspaced : ∀ ms : List (Text × Text), (∀ m ∈ ms, m.1 ∈ known ∧ IsGap m.2) →
      ∀ t, words (spaced ms ++ t) = ms.map Prod.fst ++ words t := by
    intro ms hms t
    induction ms with
    | nil => rfl
    | cons m ms ih =>
        obtain ⟨hm, hmore⟩ := List.forall_mem_cons.1 hms
        rw [spaced_cons, hm.2.words_append, (hknown m.1 hm.1).isWord.words_eq, ih hmore]
        rfl
  rw [text, hspaced _ h.isModifier, h.isGap.words_append, h.isType.1.words_eq,
    h.isName.isWord.words_eq]
  rfl

theorem beginsVisible_text (t : Text) : BeginsVisible (h.text ++ t) := by
  have hmodifiers := h.isModifier
  rw [text, List.append_assoc]
  cases hms : h.modifiers with
  | nil =>
      rw [spaced_nil, List.append_assoc]
      exact h.isType.1.beginsVisible _
  | cons m ms =>
      rw [hms] at hmodifiers
      rw [spaced_cons]
      exact (hknown m.1 (hmodifiers m List.mem_cons_self).1).isWord.beginsVisible _

end MemberHead

/-! ### Lines of code -/

theorem typeOn?_eq_none {line : Text} (h : KeywordFree line) : typeOn? line = none := by
  refine Option.eq_none_iff_forall_not_mem.2 fun d hd => ?_
  obtain ⟨u, v, rfl, hv⟩ := exists_of_leftmost? hd
  obtain ⟨keyword, hmem, hkeyword⟩ := List.exists_of_findSome?_eq_some hv
  obtain ⟨rest, hrest, -⟩ := Option.bind_eq_some_iff.1 hkeyword
  rw [eq_append_of_after? hrest] at h
  exact h keyword hmem ⟨u, rest, by simp⟩

theorem isCode_of_length {line : Text} (hlength : 2 ≤ line.length)
    (hslash : ¬ ['/', '/'] <+: line) (hstar : ¬ ['/', '*'] <+: line) : IsCode line := by
  refine ⟨fun hblock => hstar ?_, fun hcomment => ?_, ?_⟩
  · exact List.IsPrefix.trans ⟨['*'], rfl⟩ hblock.1
  · rcases hcomment with hcomment | ⟨hcomment, -⟩
    · exact hslash hcomment
    · exact hstar hcomment
  · match line with
    | [] => simp at hlength
    | [c] => simp at hlength
    | c :: d :: line => simp [isSeparator]

/-- A line of code without a type adds a method, else a field, else nothing. -/
theorem step_member {p : Progress} {line : Text} (hplace : p.place = .code)
    (hclasses : p.classes ≠ []) (hcode : IsCode line) (hkeyword : KeywordFree line) :
    step p line = { p with
      pending := none
      classes := (((methodOn? line).or (fieldOn? line)).map
        (record p.classes line p.pending)).getD p.classes } := by
  rw [step_code hplace hcode, declared?_of_no_type (typeOn?_eq_none hkeyword), if_neg hclasses]

/-- Recording a field leaves the methods as they are. -/
theorem map_methods_record_field (classes : List TypeDecl) (line : Text) (doc : Option Block)
    (name type : Text) :
    (record classes line doc (.field name type)).map TypeDecl.methods =
      classes.map TypeDecl.methods := by
  rcases List.eq_nil_or_concat' classes with rfl | ⟨more, last, rfl⟩
  · rfl
  · rw [record, onLast_concat]
    simp

/-! ### Methods -/

namespace MethodText

variable (m : MethodText)

def text : Text :=
  m.toMemberHead.text ++ (m.before ++ '(' :: (m.parameters ++ ')' :: (m.after ++ [m.mark])))

theorem isTrimmed_text : IsTrimmed m.text := by
  refine ⟨m.beginsVisible_text isName_methodModifiers _, fun c hc => ?_⟩
  have hlast : m.text.getLast? = some m.mark := by
    have hconcat : m.text = (m.toMemberHead.text ++ (m.before ++ '(' :: (m.parameters ++
        ')' :: m.after))) ++ [m.mark] := by simp [text]
    rw [hconcat, List.getLast?_concat]
  obtain rfl : m.mark = c := Option.some.inj (hlast.symm.trans hc)
  rcases m.isMark with hmark | hmark <;> rw [hmark] <;> decide

/-- A method that is spelled out on the line is the one that was written, and blanks stand
before its type only if it has a modifier. -/
theorem eq_of_spelledOn {type name : Text} (h : SpelledOn isMethodTail m.text type name) :
    m.modifiers ≠ [] ∧ type = m.type ∧ name = m.name := by
  -- there is one opening parenthesis on the line, and both ways to read it end there
  have hsplit : m.text = (m.toMemberHead.text ++ m.before) ++
      '(' :: (m.parameters ++ ')' :: (m.after ++ [m.mark])) := by
    simp [text]
  have hleft := m.parenthesis_notMem isName_methodModifiers m.areBlanks_before
  have hright : '(' ∉ m.parameters ++ ')' :: (m.after ++ [m.mark]) := by
    have hafter : '(' ∉ m.after := fun hmem => absurd (m.areBlanks_after _ hmem) (by decide)
    have hmark : '(' ≠ m.mark := by rcases m.isMark with hmark | hmark <;> rw [hmark] <;> decide
    simp [m.isParameters.1, hafter, hmark]
  obtain ⟨front, gap, rest, hbegin, hgap, hwords⟩ :=
    exists_words_of_spelledOn h hsplit hleft hright
  rw [words_append_right _ m.areBlanks_before, m.words_text isName_methodModifiers] at hwords
  obtain ⟨hfront, hends⟩ := List.append_inj' hwords rfl
  obtain ⟨rfl, rfl⟩ : m.type = type ∧ m.name = name := by simpa using hends
  refine ⟨fun hnone => ?_, rfl, rfl⟩
  -- without modifiers the line would begin with the blanks before the type
  have hvisible := m.beginsVisible_text isName_methodModifiers m.before
  rw [hbegin] at hvisible
  cases front with
  | nil =>
      obtain ⟨c, gap, rfl⟩ := List.exists_cons_of_ne_nil hgap.ne_nil
      have hblank := hgap.blanks c List.mem_cons_self
      rw [hvisible c rfl] at hblank
      cases hblank
  | cons c front =>
      rw [hnone, words_visible (hvisible c rfl)] at hfront
      cases hfront

/-- Behind a modifier the method is spelled out. -/
theorem spelledOn (hmodifiers : m.modifiers ≠ []) :
    SpelledOn isMethodTail m.text m.type m.name := by
  obtain ⟨more, last, hlast⟩ := (List.eq_nil_or_concat' m.modifiers).resolve_left hmodifiers
  refine ⟨spaced more ++ last.1, last.2, m.gap,
    m.before ++ '(' :: (m.parameters ++ ')' :: (m.after ++ [m.mark])), ?_,
    (m.isModifier last (by simp [hlast])).2, m.isType.1, m.isGap, m.isName, ?_⟩
  · simp [text, MemberHead.text, spaced, hlast]
  · exact isMethodTail_iff.2 ⟨m.before, m.parameters, m.after, m.mark, [], rfl, m.areBlanks_before,
      m.isParameters.2, m.areBlanks_after, m.isMark⟩

theorem methodOn?_text :
    methodOn? m.text = if m.modifiers = [] then none else some (.method m.name m.type) := by
  split
  · next hnone =>
      refine Option.eq_none_iff_forall_not_mem.2 fun d hd => ?_
      obtain ⟨⟨type, name⟩, hfound, -⟩ := Option.map_eq_some_iff.1 hd
      exact (m.eq_of_spelledOn (spelledOn_of_leftmost? hfound)).1 hnone
  · next hmodifiers =>
      obtain ⟨⟨type, name⟩, hfound⟩ := exists_leftmost?_of_spelledOn
        (fun t ht => (isMethodTail_iff.1 ht).head) (m.spelledOn hmodifiers)
      obtain ⟨-, rfl, rfl⟩ := m.eq_of_spelledOn (spelledOn_of_leftmost? hfound)
      rw [methodOn?, hfound]
      rfl

end MethodText

/-- A method on a line of its own is recorded with its name, its type and the trimmed line
if it has a modifier, and no method is recorded if it has none. -/
theorem step_methodText (m : MethodText) {p : Progress} {l r : Text} (hl : AreBlanks l)
    (hr : AreBlanks r) (hplace : p.place = .code) (hclasses : p.classes ≠ [])
    (hcomment : ¬ ['/', '/'] <+: m.text ∧ ¬ ['/', '*'] <+: m.text)
    (hkeyword : KeywordFree m.text) :
    (m.modifiers ≠ [] → step p (trim (l ++ (m.text ++ r))) = { p with
      pending := none
      classes := record p.classes m.text p.pending (.method m.name m.type) }) ∧
    (m.modifiers = [] → (step p (trim (l ++ (m.text ++ r)))).classes.map TypeDecl.methods =
      p.classes.map TypeDecl.methods) := by
  have hlength : 2 ≤ m.text.length := by
    simp [MethodText.text]
    omega
  have hcode := isCode_of_length hlength hcomment.1 hcomment.2
  rw [trim_append_blanks hl hr, m.isTrimmed_text.trim_eq,
    step_member hplace hclasses hcode hkeyword, m.methodOn?_text]
  constructor
  · intro hmodifiers
    rw [if_neg hmodifiers]
    rfl
  · intro hnone
    rw [if_pos hnone, Option.none_or]
    cases hfield : fieldOn? m.text with
    | none => rfl
    | some d =>
        obtain ⟨f, -, rfl⟩ := Option.map_eq_some_iff.1 hfield
        exact map_methods_record_field p.classes m.text p.pending f.2 f.1

/-- The method `area` of an interface, with the given modifiers. -/
def areaText (modifiers : List (Text × Text))
    (hmodifiers : ∀ m ∈ modifiers, m.1 ∈ methodModifiers ∧ IsGap m.2) : MethodText where
  modifiers := modifiers
  type := "double".toList
  gap := [' ']
  name := "area".toList
  isModifier := hmodifiers
  isType := by decide
  isGap := isGap_blank
  isName := by decide
  before := []
  parameters := []
  after := []
  mark := ';'
  areBlanks_before := by decide
  isParameters := by decide
  areBlanks_after := by decide
  isMark := by decide

/-- A method of an interface is not found as it is usually written, and it is found with a
modifier. -/
theorem step_methodText_area :
    let shape : TypeDecl := ⟨"Shape".toList, "interface".toList, none, [], []⟩
    let p : Progress := ⟨.code, none, [shape]⟩
    (step p (trim "  double area();".toList)).classes.map TypeDecl.methods = [[]] ∧
      (step p (trim "  public double area();".toList)).classes = [{ shape with methods :=
        [.make "area".toList "public double area();".toList "double".toList none] }] := by
  intro shape p
  have hblanks : AreBlanks "  ".toList := by decide
  constructor
  · have hline : "  double area();".toList =
        "  ".toList ++ ((areaText [] (by decide)).text ++ []) := by decide
    have hlost := (step_methodText (areaText [] (by decide)) (p := p) hblanks areBlanks_nil rfl
      (by simp [p]) (by decide) (by decide +kernel)).2 rfl
    rw [hline, hlost]
    rfl
  · have hline : "  public double area();".toList =
        "  ".toList ++ ((areaText [("public".toList, [' '])] (by decide)).text ++ []) := by decide
    have hfound := (step_methodText (areaText [("public".toList, [' '])] (by decide)) (p := p)
      hblanks areBlanks_nil rfl (by simp [p]) (by decide) (by decide +kernel)).1
      (by simp [areaText])
    rw [hline, hfound]
    rfl

end DocPress.Javadoc
