import DocPress.Proofs.Xml.Escape
import Mathlib.Data.List.TakeWhile

/-!
# Tags read back

The writer uses plain names only: letters of the first 128 code points, and
never the word that declares a namespace.  Such a name is read whole, stands for
itself in every namespace scope without a default, and a start tag of plain
names with written attributes is read back as it was (`startTag?_write`,
`resolve?_plain`).
-/

namespace DocPress.Xml

open Text

/-- Names that consist of letters and declare no namespace. -/
def isPlainName (n : Text) : Bool :=
  !n.isEmpty && n.all Char.isAlpha && n != "xmlns".toList

/-- The attributes of a tag can be read back: plain names, each once. -/
def arePlain (attributes : List (Text × Text)) : Bool :=
  (attributes.all fun a => isPlainName a.1) && allDistinct (attributes.map Prod.fst)

/-! ### Names -/

theorem isNameChar_of_isAlpha {c : Char} (h : c.isAlpha) : isNameChar c := by
  simp [isNameChar, isNameStart, h]

theorem isPlainName_iff {n : Text} :
    isPlainName n ↔ n ≠ [] ∧ (∀ c ∈ n, c.isAlpha) ∧ n ≠ "xmlns".toList := by
  simp [isPlainName, and_assoc]

theorem arePlain_iff {attributes : List (Text × Text)} :
    arePlain attributes ↔
      (∀ a ∈ attributes, isPlainName a.1) ∧ allDistinct (attributes.map Prod.fst) := by
  rw [arePlain, Bool.and_eq_true, List.all_eq_true]

theorem isPlainName_cons {n : Text} (h : isPlainName n) :
    ∃ c more, n = c :: more ∧ c.isAlpha ∧ ∀ x ∈ more, x.isAlpha := by
  obtain ⟨hne, hall, _⟩ := isPlainName_iff.1 h
  cases n with
  | nil => exact absurd rfl hne
  | cons c more =>
      exact ⟨c, more, rfl, hall c List.mem_cons_self, fun x hx =>
        hall x (List.mem_cons_of_mem c hx)⟩

/-- No letter is one of the marks that structure a document. -/
theorem ne_of_isAlpha {c : Char} (h : c.isAlpha) :
    c ≠ '>' ∧ c ≠ '/' ∧ c ≠ '!' ∧ c ≠ '?' ∧ c ≠ ':' ∧ c ≠ '<' ∧ c ≠ '\r' ∧ isSpace c = false ∧
      isDocumentChar c := by
  refine ⟨?_, ?_, ?_, ?_, ?_, ?_, ?_, ?_, ?_⟩
  iterate 7
    rintro rfl
    exact absurd h (by decide)
  · simp only [isSpace, Bool.or_eq_false_iff, decide_eq_false_iff_not]
    refine ⟨⟨?_, ?_⟩, ?_⟩ <;> rintro rfl <;> exact absurd h (by decide)
  · have hbounds : 65 ≤ c.toNat ∧ c.toNat ≤ 122 := by
      delta Char.isAlpha Char.isUpper Char.isLower at h
      simp only [Bool.or_eq_true, Bool.and_eq_true, decide_eq_true_eq] at h
      have hval : c.toNat = c.val.toNat := rfl
      simp only [ge_iff_le, UInt32.le_iff_toNat_le] at h
      rw [hval]
      rcases h with ⟨h₁, h₂⟩ | ⟨h₁, h₂⟩
      · exact ⟨h₁, Nat.le_trans h₂ (by decide)⟩
      · exact ⟨Nat.le_trans (by decide) h₁, h₂⟩
    simp only [isDocumentChar, Bool.or_eq_true, Bool.and_eq_true, decide_eq_true_eq, bne_iff_ne]
    omega

theorem qualifiedName?_plain {n : Text} (h : isPlainName n) {c : Char} (rest : Text)
    (hc : isNameChar c = false) (hcolon : c ≠ ':') :
    qualifiedName? (n ++ c :: rest) = some (n, c :: rest) := by
  obtain ⟨first, more, rfl, hfirst, hmore⟩ := isPlainName_cons h
  have hstart : isNameStart first := by simp [isNameStart, hfirst]
  have hchars : ∀ x ∈ more, isNameChar x := fun x hx => isNameChar_of_isAlpha (hmore x hx)
  have hname : name? (first :: more ++ c :: rest) = some (first :: more, c :: rest) := by
    rw [List.cons_append, name?, if_pos hstart, List.takeWhile_append_of_pos hchars,
      List.dropWhile_append_of_pos hchars]
    simp [hc]
  rw [qualifiedName?, hname]
  simp only [Option.bind_eq_bind, Option.bind_some]
  split
  · next heq => exact absurd (List.cons.inj heq).1 hcolon
  · rfl

theorem cutName_plain {n : Text} (h : isPlainName n) : cutName n = (none, n) := by
  have hall : ∀ c ∈ n, (c != ':') = true := by
    intro c hc
    simpa using (ne_of_isAlpha ((isPlainName_iff.1 h).2.1 c hc)).2.2.2.2.1
  simp only [cutName, List.takeWhile_eq_self_iff.2 hall, List.drop_length]

theorem declaredMark?_plain {n : Text} (h : isPlainName n) : declaredMark? n = none := by
  rw [declaredMark?, if_neg (isPlainName_iff.1 h).2.2, cutName_plain h]

/-! ### Start tags -/

/-- A tag may end with `>` or, after a blank, with `/>`. -/
def tagEnd (isEmpty : Bool) : Text := if isEmpty then " />".toList else ['>']

theorem tagRest_tagEnd (d : Declarations) (fuel : Nat) (isEmpty : Bool) (rest : Text) :
    tagRest d (fuel + 1) (tagEnd isEmpty ++ rest) = some ([], isEmpty, rest) := by
  cases isEmpty <;> rfl

@[simp] theorem writeAttributes_nil : writeAttributes [] = [] := rfl

theorem writeAttributes_cons (n v : Text) (more : List (Text × Text)) (tail : Text) :
    writeAttributes ((n, v) :: more) ++ tail =
      ' ' :: (n ++ '=' :: '"' :: (escapeValue v ++ '"' :: (writeAttributes more ++ tail))) := by
  simp [writeAttributes]

theorem length_le_writeAttributes (attributes : List (Text × Text)) :
    attributes.length ≤ (writeAttributes attributes).length := by
  induction attributes with
  | nil => simp
  | cons a more ih =>
      have heq := congrArg List.length (writeAttributes_cons a.1 a.2 more [])
      simp only [List.append_nil, List.length_cons, List.length_append] at heq
      rw [List.length_cons, heq]
      omega

theorem length_lt_fuel (d : Declarations) (t : Text) : t.length < d.fuel t := by
  rw [Declarations.fuel]
  induction d.entities with
  | nil => exact Nat.lt_succ_self _
  | cons e more ih =>
      rw [List.foldr_cons]
      split
      · exact Nat.lt_succ_of_lt (Nat.lt_add_right _ ih)
      · exact Nat.lt_succ_of_lt ih

/-- The text between quotation marks is cut where the value ends. -/
theorem takeWhile_escapeValue (v rest : Text) :
    (escapeValue v ++ '"' :: rest).takeWhile (· != '"') = escapeValue v := by
  have hall : ∀ c ∈ escapeValue v, (c != '"') = true := fun c hc => by
    simpa using (mem_escapeValue hc).1
  rw [List.takeWhile_append_of_pos hall]
  simp

/-- Written attributes are read back in order. -/
theorem tagRest_writeAttributes (d : Declarations) {attributes : List (Text × Text)}
    (h : ∀ a ∈ attributes, isPlainName a.1) (isEmpty : Bool) (rest : Text) (fuel : Nat)
    (hfuel : attributes.length < fuel) :
    tagRest d fuel (writeAttributes attributes ++ (tagEnd isEmpty ++ rest)) =
      some (attributes, isEmpty, rest) := by
  induction attributes generalizing fuel with
  | nil =>
      cases fuel with
      | zero => simp at hfuel
      | succ fuel => exact tagRest_tagEnd d fuel isEmpty rest
  | cons a more ih =>
      obtain ⟨n, v⟩ := a
      cases fuel with
      | zero => simp at hfuel
      | succ fuel =>
          have hn : isPlainName n := h (n, v) List.mem_cons_self
          have hmore := ih (fun a ha => h a (List.mem_cons_of_mem _ ha)) fuel
            (by simpa using hfuel)
          have hqualified := qualifiedName?_plain hn
            ('"' :: (escapeValue v ++ '"' :: (writeAttributes more ++ (tagEnd isEmpty ++ rest))))
            (c := '=') (by decide) (by decide)
          have hvalue := attributeValue_escapeValue d v _ (length_lt_fuel d (escapeValue v))
          obtain ⟨c, name, rfl, hc, -⟩ := isPlainName_cons hn
          obtain ⟨hgt, hslash, -, -, -, -, -, hspace, -⟩ := ne_of_isAlpha hc
          rw [writeAttributes_cons, tagRest]
          rw [List.cons_append] at hqualified ⊢
          have hskip : skipSpace (' ' :: c :: (name ++ '=' :: '"' :: (escapeValue v ++
              '"' :: (writeAttributes more ++ (tagEnd isEmpty ++ rest))))) =
              c :: (name ++ '=' :: '"' :: (escapeValue v ++
              '"' :: (writeAttributes more ++ (tagEnd isEmpty ++ rest)))) := by
            simp [skipSpace, hspace, show isSpace ' ' = true from rfl]
          simp only [hskip]
          -- the name begins with a letter, so the tag does not end here
          split
          · next heq => exact absurd (List.cons.inj heq).1 hgt
          · next heq => exact absurd (List.cons.inj heq).1 hslash
          · have hequals : ∀ t, skipSpace ('=' :: t) = '=' :: t := fun t => rfl
            have hquote : ∀ t, skipSpace ('"' :: t) = '"' :: t := fun t => rfl
            simp [hqualified, hequals, hquote, takeWhile_escapeValue, hvalue, hmore]

theorem withRules_none (standalone : Bool) (element : Text) (given : List (Text × Text)) :
    withRules (.none standalone) element given = given := by
  simp [withRules, Declarations.none]

/-- A written start tag is read back. -/
theorem startTag?_write (standalone : Bool) {n : Text} {attributes : List (Text × Text)}
    (hn : isPlainName n) (ha : arePlain attributes) (isEmpty : Bool) (rest : Text) :
    startTag? (.none standalone) (n ++ (writeAttributes attributes ++ (tagEnd isEmpty ++ rest))) =
      some (⟨n, attributes, isEmpty⟩, rest) := by
  obtain ⟨hplain, hdistinct⟩ := arePlain_iff.1 ha
  -- a blank or the end of the tag follows the name, so it is read in full
  obtain ⟨c, tail, htail, hc, hcolon⟩ : ∃ c tail,
      writeAttributes attributes ++ (tagEnd isEmpty ++ rest) = c :: tail ∧
        isNameChar c = false ∧ c ≠ ':' := by
    cases attributes with
    | nil =>
        cases isEmpty with
        | false => exact ⟨'>', rest, rfl, by decide, by decide⟩
        | true => exact ⟨' ', '/' :: '>' :: rest, rfl, by decide, by decide⟩
    | cons a more => exact ⟨' ', _, writeAttributes_cons a.1 a.2 more _, by decide, by decide⟩
  have hqualified := qualifiedName?_plain hn tail hc hcolon
  have hlength : attributes.length < (c :: tail).length + 1 := by
    have hle := length_le_writeAttributes attributes
    rw [← htail, List.length_append]
    omega
  have hattributes := tagRest_writeAttributes (.none standalone) hplain isEmpty rest _ hlength
  rw [htail] at hattributes ⊢
  simp only [startTag?, hqualified, Option.bind_eq_bind, Option.bind_some, hattributes, hdistinct,
    if_true, withRules_none]

/-! ### Namespaces -/

/-- The scope at the root of a document. -/
def rootScope : Scope := [("xml".toList, xmlSpace)]

theorem bindAll_plain {attributes : List (Text × Text)} (scope : Scope)
    (h : ∀ a ∈ attributes, isPlainName a.1) : bindAll scope attributes = some scope := by
  induction attributes with
  | nil => rfl
  | cons a more ih =>
      obtain ⟨n, v⟩ := a
      rw [bindAll, declaredMark?_plain (h (n, v) List.mem_cons_self)]
      exact ih fun a ha => h a (List.mem_cons_of_mem _ ha)

theorem elementName?_plain {n : Text} (h : isPlainName n) :
    elementName? rootScope n = some n := by
  rw [elementName?, cutName_plain h]
  rfl

theorem attributeName?_plain {n : Text} (scope : Scope) (h : isPlainName n) :
    attributeName? scope n = some n := by
  rw [attributeName?, cutName_plain h]

theorem mapM_attributeName? (scope : Scope) {attributes : List (Text × Text)}
    (h : ∀ a ∈ attributes, isPlainName a.1) :
    (attributes.mapM fun a => (attributeName? scope a.1).bind fun n => some (n, a.2)) =
      some attributes := by
  induction attributes with
  | nil => rfl
  | cons a more ih =>
      rw [List.mapM_cons, ih fun a ha => h a (List.mem_cons_of_mem _ ha),
        attributeName?_plain scope (h a List.mem_cons_self)]
      rfl

/-- Plain names stand for themselves, and the scope stays as it is. -/
theorem resolve?_plain {n : Text} {attributes : List (Text × Text)} {isEmpty : Bool}
    (hn : isPlainName n) (ha : arePlain attributes) :
    (Tag.mk n attributes isEmpty).resolve? rootScope = some (n, attributes, rootScope) := by
  obtain ⟨hplain, hdistinct⟩ := arePlain_iff.1 ha
  have hfilter : (attributes.filter fun a => (declaredMark? a.1).isNone) = attributes := by
    refine List.filter_eq_self.2 fun a ha => ?_
    rw [declaredMark?_plain (hplain a ha)]
    rfl
  simp only [Tag.resolve?, bindAll_plain rootScope hplain, elementName?_plain hn, hfilter,
    mapM_attributeName? rootScope hplain, Option.bind_eq_bind, Option.bind_some, hdistinct, if_true]

end DocPress.Xml
