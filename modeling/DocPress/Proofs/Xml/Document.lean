import DocPress.Proofs.Text.Trim
import DocPress.Proofs.Xml.Written

/-!
# Documents read back

A written document is read back as the element it was written from, with two
changes that the format makes (`Element.Writable.read?_writeDocument`):

* in the text of an element every line end becomes a line feed
  (`Element.mapText unifyLineEnds`);
* an element with children gets the indentation before its first child as its
  text (`Element.indented`).

The reader counts down a bound on the characters it may still read.
`ReadsContent` and `ReadsElement` say what is read under every bound that exceeds
the length of the text, so the bound appears in the rules for single items only.
-/

namespace DocPress.Xml

open Text

/-! ### Indentation -/

mutual

/-- The tree with the line break and the blanks that are written before the
first child as the text of its parent. -/
def Element.indented (depth : Nat) : Element → Element
  | .mk name attributes text [] => .mk name attributes text []
  | .mk name attributes _ (first :: others) =>
      .mk name attributes (newLine (depth + 1)) (indentedAll (depth + 1) (first :: others))

/-- The trees at one depth with their indentation. -/
def indentedAll (depth : Nat) : List Element → List Element
  | [] => []
  | e :: more => e.indented depth :: indentedAll depth more

end

theorem indentedAll_eq_map (depth : Nat) (es : List Element) :
    indentedAll depth es = es.map (Element.indented depth) := by
  induction es with
  | nil => rfl
  | cons e more ih => rw [indentedAll, ih, List.map_cons]

theorem indented_leaf (depth : Nat) (name : Text) (attributes : List (Text × Text))
    (text : Text) :
    (Element.leaf name attributes text).indented depth = .leaf name attributes text := by
  simp [Element.leaf, Element.indented]

/-! ### Reading content -/

/-- The content of a text is read, whatever bound beyond its length is given. -/
def ReadsContent (d : Declarations) (t : Text) (k : Content) (rest : Text) : Prop :=
  ∀ fuel, t.length < fuel → content d fuel [] rootScope t = some (k, rest)

/-- An element is read after its `<`, whatever bound beyond the length of the text is given. -/
def ReadsElement (d : Declarations) (t : Text) (e : Element) (rest : Text) : Prop :=
  ∀ fuel, t.length < fuel → element d fuel [] rootScope t = some (e, rest)

section Reading

variable {d : Declarations} {t rest : Text} {k : Content}

theorem readsContent_endTag (d : Declarations) (t : Text) :
    ReadsContent d ('<' :: '/' :: t) .empty ('<' :: '/' :: t) := by
  intro fuel hfuel
  cases fuel with
  | zero => simp at hfuel
  | succ fuel => rfl

theorem ReadsContent.char (h : ReadsContent d t k rest) {c : Char} (hlt : c ≠ '<') (hamp : c ≠ '&')
    (hclose : [']', '>'].isPrefixOf t = false) :
    ReadsContent d (c :: t) (k.char c) rest := by
  intro fuel hfuel
  cases fuel with
  | zero => simp at hfuel
  | succ fuel =>
      have hread := h fuel (by simpa using hfuel)
      rw [content.eq_def]
      simp only [hlt, hamp, hclose, if_false, Bool.and_false, Bool.false_eq_true, hread,
        Option.bind_eq_bind, Option.bind_some]

theorem ReadsContent.reference (h : ReadsContent d t k rest) {c : Char} {name : Text}
    (href : reference? (name ++ t) = some (.char c, t)) :
    ReadsContent d ('&' :: (name ++ t)) (k.char c) rest := by
  intro fuel hfuel
  cases fuel with
  | zero => simp at hfuel
  | succ fuel =>
      have hshort : t.length < fuel := by
        simp only [List.length_cons, List.length_append] at hfuel
        omega
      have hmark : ('&' : Char) ≠ '<' := by decide
      rw [content.eq_def]
      simp only [hmark, if_false, if_true, href, h fuel hshort, Option.bind_eq_bind,
        Option.bind_some]

theorem ReadsContent.element {e : Element} {inner : Text} (helement : ReadsElement d inner e t)
    (h : ReadsContent d t k rest) (hlength : t.length ≤ inner.length) {c : Char}
    (hhead : inner.head? = some c) (hc : c.isAlpha) :
    ReadsContent d ('<' :: inner) (k.element e) rest := by
  intro fuel hfuel
  cases fuel with
  | zero => simp at hfuel
  | succ fuel =>
      have hinner : inner.length < fuel := by simpa using hfuel
      obtain ⟨hslash, hbang, hquestion⟩ : c ≠ '/' ∧ c ≠ '!' ∧ c ≠ '?' := by
        have := ne_of_isAlpha hc
        exact ⟨this.2.1, this.2.2.1, this.2.2.2.1⟩
      cases inner with
      | nil => simp at hhead
      | cons x inner =>
          obtain rfl : x = c := by simpa using hhead
          -- a name begins with a letter, so no other reading of what follows `<` applies
          rw [content.eq_def]
          simp only [if_true]
          split
          · next heq => exact absurd (List.cons.inj heq).1 hslash
          · next heq => exact absurd (List.cons.inj heq).1 hquestion
          · next heq => exact absurd (List.cons.inj heq).1 hbang
          · simp only [helement fuel hinner, h fuel (by omega), Option.bind_eq_bind,
              Option.bind_some]

/-- Escaped text holds no `>`, so it cannot close a section that was not opened. -/
theorem isPrefixOf_escapeText (text t : Text) :
    [']', '>'].isPrefixOf (escapeText text ++ '<' :: t) = false := by
  cases h : escapeText text with
  | nil => rfl
  | cons x more =>
      cases more with
      | nil => simp [List.isPrefixOf]
      | cons y more =>
          have hy : y ≠ '>' := by
            rintro rfl
            exact gt_notMem_escapeText text (by simp [h])
          simp [List.isPrefixOf, hy.symm]

/-- Escaped text before a tag is read back as it was. -/
theorem ReadsContent.escapeText (h : ReadsContent d ('<' :: t) k rest) (text : Text) :
    ReadsContent d (escapeText text ++ '<' :: t) (k.prepend text) rest := by
  induction text with
  | nil => exact h
  | cons c text ih =>
      rw [escapeText_cons]
      rcases escapeChar_cases c with ⟨heq, hamp, hlt, -⟩ | ⟨name, heq, -, hread⟩
      · rw [heq]
        exact ih.char hlt hamp (isPrefixOf_escapeText text t)
      · rw [heq, List.cons_append, List.cons_append, List.append_assoc]
        exact ih.reference (hread _)

/-! ### Reading elements -/

theorem endTag?_endTag (name rest : Text) : endTag? name (endTag name ++ rest) = some rest := by
  have hshape : endTag name ++ rest = ('<' :: '/' :: name) ++ '>' :: rest := by simp [endTag]
  rw [endTag?, hshape, Text.after?_append]
  rfl

theorem readsElement_empty (standalone : Bool) {name : Text} {attributes : List (Text × Text)}
    (hname : isPlainName name) (hattributes : arePlain attributes) (rest : Text) :
    ReadsElement (.none standalone) (name ++ (writeAttributes attributes ++ (tagEnd true ++ rest)))
      (.leaf name attributes []) rest := by
  intro fuel hfuel
  cases fuel with
  | zero => simp at hfuel
  | succ fuel =>
      rw [element.eq_def]
      simp only [startTag?_write standalone hname hattributes true rest, Option.bind_eq_bind,
        Option.bind_some, resolve?_plain hname hattributes, if_true,
        Element.leaf]

theorem readsElement_content {standalone : Bool} {name : Text} {attributes : List (Text × Text)}
    (rest : Text) (hname : isPlainName name) (hattributes : arePlain attributes)
    (h : ReadsContent (.none standalone) t k (endTag name ++ rest)) :
    ReadsElement (.none standalone) (name ++ (writeAttributes attributes ++ (tagEnd false ++ t)))
      (.mk name attributes k.text k.children) rest := by
  intro fuel hfuel
  cases fuel with
  | zero => simp at hfuel
  | succ fuel =>
      have hshort : t.length < fuel := by
        simp only [List.length_append, tagEnd, Bool.false_eq_true, if_false, List.length_cons]
          at hfuel
        omega
      rw [element.eq_def]
      simp only [startTag?_write standalone hname hattributes false t, Option.bind_eq_bind,
        Option.bind_some, resolve?_plain hname hattributes,
        Bool.false_eq_true, if_false, h fuel hshort, endTag?_endTag]

end Reading

/-- A written element that is read back after its `<` is read back as content. -/
theorem Element.Writable.readsContent_of_readsElement {e : Element} (hwritable : e.Writable)
    {d : Declarations} {depth : Nat} {t : Text} {k : Content} {rest : Text}
    (h : ReadsElement d ((e.write depth).tail ++ t) (e.indented depth) t)
    (hrest : ReadsContent d t k rest) :
    ReadsContent d (e.write depth ++ t) (k.element (e.indented depth)) rest := by
  obtain ⟨tail, htail⟩ := hwritable.exists_write_eq depth
  obtain ⟨c, more, hname, hc, -⟩ := isPlainName_cons hwritable.isPlainName_name
  rw [htail, hname] at h ⊢
  exact .element h hrest (by simp; omega) rfl hc

/-- Written children are read in order.  The text before the first of them is the
indentation; after the last one stands what follows. -/
theorem readsContent_writeChildren {d : Declarations} {depth : Nat} {es : List Element}
    (hwritable : ∀ e ∈ es, e.Writable)
    (h : ∀ e ∈ es, ∀ t, ReadsElement d ((e.write depth).tail ++ t) (e.indented depth) t)
    {t : Text} {k : Content} {rest : Text} (hrest : ReadsContent d t k rest) :
    ReadsContent d (writeChildren depth es ++ t)
      ⟨if es = [] then k.text else newLine depth, indentedAll depth es ++ k.children⟩ rest := by
  -- on the children; the text after a child is dropped, and with it the indentation of the next
  induction es with
  | nil => exact hrest
  | cons e more ih =>
      have he := hwritable e List.mem_cons_self
      have hmore := ih (fun e he => hwritable e (List.mem_cons_of_mem _ he))
        (fun e he => h e (List.mem_cons_of_mem _ he))
      have helement := he.readsContent_of_readsElement (h e List.mem_cons_self _) hmore
      obtain ⟨tail, htail⟩ := he.exists_write_eq depth
      rw [writeChildren_cons, List.append_assoc, List.append_assoc]
      rw [htail, List.cons_append] at helement ⊢
      have hindent := helement.escapeText (newLine depth)
      rw [escapeText_newLine] at hindent
      simpa [Content.prepend, Content.element, indentedAll] using hindent

/-- A written element is read back with its indentation. -/
theorem Element.Writable.readsElement (standalone : Bool) {e : Element} (h : e.Writable)
    (depth : Nat) (rest : Text) :
    ReadsElement (.none standalone) ((e.write depth).tail ++ rest) (e.indented depth) rest := by
  induction h generalizing depth rest with
  | @leaf name attributes text hname hattributes _ _ =>
      rw [indented_leaf]
      by_cases hnil : text = []
      · subst hnil
        have hempty := readsElement_empty standalone hname hattributes rest
        simpa only [write_leaf_nil, startTag, List.tail_cons, List.append_assoc] using hempty
      · have hend := readsContent_endTag (.none standalone) (name ++ '>' :: rest)
        have htext := readsElement_content rest hname hattributes
          (by simpa [endTag] using hend.escapeText text)
        rw [write_leaf hnil]
        simpa [startTag, endTag, Element.leaf, Content.prepend, Content.empty] using htext
  | @branch name attributes children hname hattributes _ hwritable ih =>
      by_cases hnil : children = []
      · subst hnil
        have hempty := readsElement_empty standalone hname hattributes rest
        have hindented : (Element.branch name attributes []).indented depth =
            .leaf name attributes [] := by
          simp [Element.branch, Element.leaf, Element.indented]
        rw [hindented]
        simpa only [show Element.branch name attributes [] = .leaf name attributes [] from rfl,
          write_leaf_nil, startTag, List.tail_cons, List.append_assoc] using hempty
      · -- from the inside out: the end tag, the line before it, the children, the start tag
        have hend := readsContent_endTag (.none standalone) (name ++ '>' :: rest)
        have hlast := hend.escapeText (newLine depth)
        rw [escapeText_newLine] at hlast
        have hcontent := readsContent_writeChildren hwritable
          (fun e he t => ih e he (depth + 1) t) hlast
        have hbranch := readsElement_content rest hname hattributes
          (by simpa [endTag] using hcontent)
        have hindented : (Element.branch name attributes children).indented depth =
            .mk name attributes (newLine (depth + 1)) (indentedAll (depth + 1) children) := by
          cases children with
          | nil => exact absurd rfl hnil
          | cons first others => simp [Element.branch, Element.indented]
        rw [hindented]
        simpa [write_branch hnil, startTag, endTag, Content.prepend, Content.empty, hnil]
          using hbranch

/-! ### Whole documents -/

/-- Nothing is skipped before an element but white space. -/
theorem skipMisc_element {c : Char} (hc : c.isAlpha) (fuel : Nat) (t : Text) :
    skipMisc (fuel + 1) ('\n' :: '<' :: c :: t) = some ('<' :: c :: t) := by
  obtain ⟨hbang, hquestion⟩ : c ≠ '!' ∧ c ≠ '?' :=
    ⟨(ne_of_isAlpha hc).2.2.1, (ne_of_isAlpha hc).2.2.2.1⟩
  have hspace : skipSpace ('\n' :: '<' :: c :: t) = '<' :: c :: t := rfl
  rw [skipMisc, hspace]
  split
  · next heq => exact absurd (List.cons.inj (List.cons.inj heq).2).1 hbang
  · next heq => exact absurd (List.cons.inj (List.cons.inj heq).2).1 hquestion
  · rfl

/-- After the first line of a document its root element is read. -/
theorem Element.Writable.body?_write {e : Element} (h : e.Writable) (standalone : Bool) :
    body? standalone ('\n' :: (e.write 0 ++ ['\n'])) = some (e.indented 0) := by
  have helement := h.readsElement standalone 0 ['\n']
  obtain ⟨tail, htail⟩ := h.exists_write_eq 0
  obtain ⟨c, more, hname, hc, -⟩ := isPlainName_cons h.isPlainName_name
  have hbang : c ≠ '!' := (ne_of_isAlpha hc).2.2.1
  rw [htail, hname] at helement ⊢
  simp only [List.cons_append, List.tail_cons] at helement ⊢
  have hdoctype : Text.after? "<!DOCTYPE".toList ('<' :: c :: (more ++ tail ++ ['\n'])) = none := by
    refine Text.after?_eq_none fun hdoctype => hbang ?_
    exact (List.cons_prefix_cons.1 (List.cons_prefix_cons.1 hdoctype).2).1.symm
  have hopen : Text.after? ['<'] ('<' :: c :: (more ++ tail ++ ['\n'])) =
      some (c :: (more ++ tail ++ ['\n'])) := rfl
  have hroot := helement _ (length_lt_fuel (.none standalone) _)
  simp only [body?, List.length_cons, skipMisc_element hc, hdoctype, hopen, Option.bind_eq_bind,
    Option.bind_some]
  rw [rootScope] at hroot
  simp only [hroot, Option.bind_some]
  rfl

theorem firstLine?_declaration (t : Text) :
    firstLine? ((declaration ++ t).drop 5) = some (false, '\n' :: t) := rfl

/-- A written document is read back, but for line ends and indentation. -/
theorem Element.Writable.read?_writeDocument {e : Element} (h : e.Writable) :
    read? (writeDocument e) = some ((e.mapText unifyLineEnds).indented 0) := by
  have hno : '\r' ∉ declaration := by decide
  have hmark : Text.after? ['\ufeff'] (writeDocument e) = none := rfl
  -- the line ends of the whole document are unified before any of it is read
  have hunified : unifyLineEnds (writeDocument e) =
      declaration ++ ((e.mapText unifyLineEnds).write 0 ++ ['\n']) := by
    rw [writeDocument, List.append_assoc, unifyLineEnds_append_of_notMem _ hno,
      h.unifyLineEnds_write]
    rfl
  have hall :
      (declaration ++ ((e.mapText unifyLineEnds).write 0 ++ ['\n'])).all isDocumentChar := by
    have hdeclaration : declaration.all isDocumentChar := by decide
    have hwrite := List.all_eq_true.2 (h.mapText_unifyLineEnds.isDocumentChar_write 0)
    rw [List.all_append, List.all_append, hdeclaration, hwrite]
    rfl
  have hfirst : hasFirstLine (declaration ++ ((e.mapText unifyLineEnds).write 0 ++ ['\n'])) := rfl
  simp only [read?, hmark, Option.getD_none, hunified, hall, hfirst, firstLine?_declaration,
    Bool.not_true, Bool.false_eq_true, if_false, if_true, Option.bind_eq_bind, Option.bind_some]
  exact h.mapText_unifyLineEnds.body?_write false

end DocPress.Xml
