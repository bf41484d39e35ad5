import DocPress.Proofs.Javadoc.Attachment
import DocPress.Proofs.Javadoc.Member

/-!
# What is recorded stands in the text

Every type, method and field of a scan is spelled out on one of the trimmed lines of its text:
a type as its keyword, blanks and its name, a member as blanks, its type, blanks, its name and
the end that its kind wants (`scan_grounded`).  A line may spell out several methods, as the
arguments of a call look like parameters; with one opening parenthesis on it there is one
method at most, made of the last two words before the parenthesis
(`exists_words_of_spells`).
-/

namespace DocPress.Javadoc

open Text

/-- A type on a line: the keyword of its kind, blanks and its name to the last word
character. -/
def SpellsType (line kind name : Text) : Prop :=
  ∃ keyword before gap after, (keyword, kind) ∈ typeKeywords ∧
    line = before ++ (keyword ++ (gap ++ (name ++ after))) ∧ IsGap gap ∧ IsName name ∧
    ∀ c ∈ after.head?, isWordChar c = false

/-- A member on a line: blanks, its type, blanks, its name and an end that fits. -/
def Spells (ending : Text → Prop) (line type name : Text) : Prop :=
  ∃ front gap between tail,
    line = front ++ (gap ++ (type ++ (between ++ (name ++ tail)))) ∧ IsGap gap ∧ IsWord type ∧
      IsGap between ∧ IsName name ∧ ending tail

/-- Blanks, perhaps an equals sign and a value, and the first semicolon behind it. -/
def InitializerEnd (t : Text) : Prop :=
  ∃ before initializer rest, t = before ++ (initializer ++ ';' :: rest) ∧ AreBlanks before ∧
    (initializer = [] ∨ ∃ value, initializer = '=' :: value ∧ ';' ∉ value)

/-- The line holds one opening parenthesis, which parts it in two. -/
structure PartsAtParenthesis (line before after : Text) : Prop where
  line_eq : line = before ++ '(' :: after
  before : '(' ∉ before
  after : '(' ∉ after

/-- A type whose parts are all spelled out on the given lines. -/
structure Grounded (ls : List Text) (c : TypeDecl) : Prop where
  kind : c.kind ∈ ["class".toList, "interface".toList, "enum".toList, "annotation".toList]
  type : ∃ line ∈ ls, SpellsType line c.kind c.name
  methods : ∀ m ∈ c.methods, m.signature ∈ ls ∧ Spells MethodEnd m.signature m.returnType m.name
  /-- The type and the name of a method are the last two words before the only opening
  parenthesis of its signature, and there is no other way to read the signature. -/
  unique : ∀ m ∈ c.methods, ∀ before after, PartsAtParenthesis m.signature before after →
    (∃ front, words before = front ++ [m.returnType, m.name]) ∧
      ∀ type name, Spells MethodEnd m.signature type name → type = m.returnType ∧ name = m.name
  fields : ∀ f ∈ c.fields, ∃ line ∈ ls, Spells InitializerEnd line f.typeText f.name

/-! ### Types -/

theorem spellsType_of_typeOn? {line kind name : Text}
    (h : typeOn? line = some (.type kind name)) : SpellsType line kind name := by
  obtain ⟨u, v, rfl, hv⟩ := exists_of_leftmost? h
  obtain ⟨⟨keyword, kind'⟩, hmem, hkeyword⟩ := List.exists_of_findSome?_eq_some hv
  simp only [Option.bind_eq_bind, Option.bind_eq_some_iff, Option.some.injEq] at hkeyword
  obtain ⟨behind, hbehind, rest, hrest, ⟨word, after⟩, hname, heq⟩ := hkeyword
  obtain ⟨rfl, rfl⟩ := Declaration.type.inj heq
  obtain ⟨gap, rfl, hgap, -⟩ := exists_of_afterBlanks? hrest
  have hends := not_isWordChar_of_name? hname
  obtain ⟨rfl, hword⟩ := exists_of_name? hname
  exact ⟨keyword, u, gap, after, hmem, by rw [eq_append_of_after? hbehind], hgap, hword, hends⟩

/-! ### Members -/

theorem spelledOn_iff_spells {isTail : Text → Bool} {ending : Text → Prop}
    (htail : ∀ t, isTail t = true ↔ ending t) {line type name : Text} :
    SpelledOn isTail line type name ↔ Spells ending line type name := by
  simp only [SpelledOn, Spells, htail]

/-- The value of a field goes on to the first semicolon. -/
theorem fieldEnd_iff_initializerEnd {t : Text} : FieldEnd t ↔ InitializerEnd t := by
  constructor
  · rintro ⟨before, mark, rest, rfl, hbefore, rfl | ⟨rfl, hmem⟩⟩
    · exact ⟨before, [], rest, rfl, hbefore, .inl rfl⟩
    · obtain ⟨value, rest, rfl, hvalue⟩ := List.eq_append_cons_of_mem hmem
      exact ⟨before, '=' :: value, rest, rfl, hbefore, .inr ⟨value, rfl, hvalue⟩⟩
  · rintro ⟨before, initializer, rest, rfl, hbefore, rfl | ⟨value, rfl, -⟩⟩
    · exact ⟨before, ';', rest, rfl, hbefore, .inl rfl⟩
    · exact ⟨before, '=', value ++ ';' :: rest, rfl, hbefore, .inr ⟨rfl, by simp⟩⟩

theorem spells_of_methodOn? {line name type : Text}
    (h : methodOn? line = some (.method name type)) : Spells MethodEnd line type name := by
  obtain ⟨⟨type', name'⟩, hfound, heq⟩ := Option.map_eq_some_iff.1 h
  obtain ⟨rfl, rfl⟩ := Declaration.method.inj heq
  exact (spelledOn_iff_spells fun _ => isMethodTail_iff).1 (spelledOn_of_leftmost? hfound)

theorem spells_of_fieldOn? {line name type : Text}
    (h : fieldOn? line = some (.field name type)) : Spells InitializerEnd line type name := by
  obtain ⟨⟨type', name'⟩, hfound, heq⟩ := Option.map_eq_some_iff.1 h
  obtain ⟨rfl, rfl⟩ := Declaration.field.inj heq
  refine (spelledOn_iff_spells fun t => ?_).1 (spelledOn_of_leftmost? hfound)
  rw [isFieldTail_iff, fieldEnd_iff_initializerEnd]

/-- With one opening parenthesis on a line, a method that it spells out is made of the last
two words before the parenthesis. -/
theorem exists_words_of_spells {line type name before after : Text}
    (h : Spells MethodEnd line type name) (hparts : PartsAtParenthesis line before after) :
    ∃ front, words before = front ++ [type, name] := by
  have hspelled := (spelledOn_iff_spells fun _ => isMethodTail_iff).2 h
  obtain ⟨front, -, -, -, -, hwords⟩ :=
    exists_words_of_spelledOn hspelled hparts.line_eq hparts.before hparts.after
  exact ⟨words front, hwords⟩

theorem Spells.unique {line type name type' name' before after : Text}
    (h : Spells MethodEnd line type name) (h' : Spells MethodEnd line type' name')
    (hparts : PartsAtParenthesis line before after) : type' = type ∧ name' = name := by
  obtain ⟨front, hwords⟩ := exists_words_of_spells h hparts
  obtain ⟨front', hwords'⟩ := exists_words_of_spells h' hparts
  have hsame := List.append_inj_right' (hwords'.symm.trans hwords) rfl
  simpa using hsame

/-! ### Lines and what they declare -/

/-- What a line declares is what its first fitting reading gives. -/
theorem reading_of_declarationOn? {line : Text} {d : Declaration}
    (h : declarationOn? line = some d) :
    match d with
    | .type kind name => typeOn? line = some (.type kind name)
    | .method name type => methodOn? line = some (.method name type)
    | .field name type => fieldOn? line = some (.field name type) := by
  rw [declarationOn?, Option.or_eq_some_iff, Option.or_eq_some_iff] at h
  rcases h with (htype | ⟨-, hmethod⟩) | ⟨-, hfield⟩
  · obtain ⟨kind, name, rfl⟩ := typeOn?_eq_some htype
    exact htype
  · obtain ⟨m, -, rfl⟩ := Option.map_eq_some_iff.1 hmethod
    exact hmethod
  · obtain ⟨f, -, rfl⟩ := Option.map_eq_some_iff.1 hfield
    exact hfield

theorem located_of_mem_findings {content : Text} {f : Finding} (h : f ∈ findings content) :
    f.text ∈ trimmedLines content ∧ declarationOn? f.text = some f.declaration := by
  obtain ⟨hlt, hfound⟩ := mem_findingsBefore h
  obtain ⟨-, htext, -, -, hdeclared, -⟩ := finding?_eq_some hfound
  refine ⟨?_, declarationOn?_of_declared? hdeclared⟩
  rw [htext, lineAt, List.getElem?_eq_getElem hlt]
  exact List.getElem_mem hlt

/-- Whatever stems from declarations on the lines of a text is spelled out there. -/
theorem StemsFrom.grounded {content : Text} {c : TypeDecl} (h : StemsFrom (findings content) c) :
    Grounded (trimmedLines content) c := by
  have hmethod : ∀ m ∈ c.methods, m.signature ∈ trimmedLines content ∧
      Spells MethodEnd m.signature m.returnType m.name := by
    intro m hm
    obtain ⟨f, hf, hdeclared, htext, -⟩ := h.methods m hm
    obtain ⟨hmem, hon⟩ := located_of_mem_findings hf
    rw [hdeclared, htext] at hon
    exact ⟨htext ▸ hmem, spells_of_methodOn? (reading_of_declarationOn? hon)⟩
  obtain ⟨line, hmem, hspells⟩ : ∃ line ∈ trimmedLines content, SpellsType line c.kind c.name := by
    obtain ⟨f, hf, hdeclared, -⟩ := h.type
    obtain ⟨hmem, hon⟩ := located_of_mem_findings hf
    rw [hdeclared] at hon
    exact ⟨f.text, hmem, spellsType_of_typeOn? (reading_of_declarationOn? hon)⟩
  refine ⟨?_, ⟨line, hmem, hspells⟩, hmethod, fun m hm before after hparts => ?_, ?_⟩
  · obtain ⟨keyword, -, -, -, hkeyword, -⟩ := hspells
    have hkinds : ∀ k ∈ typeKeywords, k.2 ∈
        ["class".toList, "interface".toList, "enum".toList, "annotation".toList] := by decide
    exact hkinds _ hkeyword
  · have hspells := (hmethod m hm).2
    exact ⟨exists_words_of_spells hspells hparts, fun type name h => hspells.unique h hparts⟩
  · intro field hfield
    obtain ⟨f, hf, hdeclared, -⟩ := h.fields field hfield
    obtain ⟨hmem, hon⟩ := located_of_mem_findings hf
    rw [hdeclared] at hon
    exact ⟨f.text, hmem, spells_of_fieldOn? (reading_of_declarationOn? hon)⟩

/-- Every type of a scan, with its methods and fields, is spelled out on the trimmed lines of
the text. -/
theorem scan_grounded (u : SourceUnit) :
    ∀ c ∈ (scan u).classes, Grounded (trimmedLines u.content) c := by
  intro c hc
  have hclasses : (scan u).classes = assemble (findings u.content) := by
    rw [scan, classesOf_eq, findings]
    exact classes_progressAt (Nat.le_refl _)
  rw [hclasses] at hc
  exact (stemsFrom_assemble _ c hc).grounded

/-- The first of two methods on a line is passed over where it does not end as a method, and
the value of a field may hold a call. -/
theorem scan_grounded_two :
    let u : SourceUnit := SourceUnit.make "A.java".toList "A.java".toList
      ("public @interface A \x7b\n\tint size() default 0; int all () ;\n".toList ++
        "  protected List<A> names(int a,int b) \x7b\n  final int n=g(1); \x7d".toList) none
    let all : Method := .make "all".toList "int size() default 0; int all () ;".toList
      "int".toList none
    let names : Method := .make "names".toList "protected List<A> names(int a,int b) \x7b".toList
      "List<A>".toList none
    let c : TypeDecl := ⟨"A".toList, "annotation".toList, none,
      [⟨"n".toList, "int".toList, none⟩], [all, names]⟩
    (scan u).classes = [c] ∧ Grounded (trimmedLines u.content) c := by
  intro u all names c
  have hclasses : (scan u).classes = [c] := by decide +kernel
  exact ⟨hclasses, scan_grounded u c (by rw [hclasses]; exact List.mem_cons_self)⟩

end DocPress.Javadoc
