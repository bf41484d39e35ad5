import DocPress.Proofs.Xml.Tag

/-!
# Elements as they are written

The elements that a document can hold (`Element.Writable`), the shape of their
written form, and what becomes of that form when line ends are unified: only the
texts of the elements change (`Element.Writable.unifyLineEnds_write`).
-/

namespace DocPress.Xml

open Text

/-- Elements whose names, values and texts a document can hold, with text or
children but not both. -/
inductive Element.Writable : Element → Prop
  | leaf {name : Text} {attributes : List (Text × Text)} {text : Text}
      (hname : isPlainName name) (hattributes : arePlain attributes)
      (hvalues : ∀ a ∈ attributes, ∀ c ∈ a.2, isDocumentChar c)
      (htext : ∀ c ∈ text, isDocumentChar c) :
      Writable (.leaf name attributes text)
  | branch {name : Text} {attributes : List (Text × Text)} {children : List Element}
      (hname : isPlainName name) (hattributes : arePlain attributes)
      (hvalues : ∀ a ∈ attributes, ∀ c ∈ a.2, isDocumentChar c)
      (hchildren : ∀ e ∈ children, Writable e) :
      Writable (.branch name attributes children)

mutual

/-- The tree with every text changed. -/
def Element.mapText (f : Text → Text) : Element → Element
  | .mk name attributes text children => .mk name attributes (f text) (mapTexts f children)

/-- The trees with every text changed. -/
def mapTexts (f : Text → Text) : List Element → List Element
  | [] => []
  | e :: more => e.mapText f :: mapTexts f more

end

theorem mapTexts_eq_map (f : Text → Text) (es : List Element) :
    mapTexts f es = es.map (Element.mapText f) := by
  induction es with
  | nil => rfl
  | cons e more ih => rw [mapTexts, ih, List.map_cons]

theorem mapText_leaf (f : Text → Text) (name : Text) (attributes : List (Text × Text))
    (text : Text) :
    (Element.leaf name attributes text).mapText f = .leaf name attributes (f text) := by
  simp [Element.leaf, Element.mapText, mapTexts]

theorem mapText_branch {f : Text → Text} (hf : f [] = []) (name : Text)
    (attributes : List (Text × Text)) (children : List Element) :
    (Element.branch name attributes children).mapText f =
      .branch name attributes (children.map (Element.mapText f)) := by
  simp [Element.branch, Element.mapText, hf, mapTexts_eq_map]

/-- Mended line ends can be held by a document as well. -/
theorem Element.Writable.mapText_unifyLineEnds {e : Element} (h : e.Writable) :
    (e.mapText unifyLineEnds).Writable := by
  induction h with
  | leaf hname hattributes hvalues htext =>
      rw [mapText_leaf]
      refine .leaf hname hattributes hvalues fun c hc => ?_
      rcases mem_of_mem_unifyLineEnds hc with hc | rfl
      · exact htext c hc
      · decide
  | branch hname hattributes hvalues _ ih =>
      rw [mapText_branch rfl]
      refine .branch hname hattributes hvalues fun e he => ?_
      obtain ⟨child, hchild, rfl⟩ := List.mem_map.1 he
      exact ih child hchild

/-! ### The written form -/

/-- The start tag of an element, or its only tag when it is empty. -/
def startTag (name : Text) (attributes : List (Text × Text)) (isEmpty : Bool) : Text :=
  '<' :: (name ++ (writeAttributes attributes ++ tagEnd isEmpty))

/-- The end tag of an element. -/
def endTag (name : Text) : Text := '<' :: '/' :: (name ++ ['>'])

theorem write_leaf_nil (depth : Nat) (name : Text) (attributes : List (Text × Text)) :
    (Element.leaf name attributes []).write depth = startTag name attributes true := by
  simp [Element.leaf, Element.write, startTag, tagEnd]

theorem write_leaf {text : Text} (h : text ≠ []) (depth : Nat) (name : Text)
    (attributes : List (Text × Text)) :
    (Element.leaf name attributes text).write depth =
      startTag name attributes false ++ (escapeText text ++ endTag name) := by
  cases text with
  | nil => exact absurd rfl h
  | cons c text => simp [Element.leaf, Element.write, startTag, endTag, tagEnd]

theorem write_branch {children : List Element} (h : children ≠ []) (depth : Nat) (name : Text)
    (attributes : List (Text × Text)) :
    (Element.branch name attributes children).write depth =
      startTag name attributes false ++
        (writeChildren (depth + 1) children ++ (newLine depth ++ endTag name)) := by
  cases children with
  | nil => exact absurd rfl h
  | cons first others => simp [Element.branch, Element.write, startTag, endTag, tagEnd]

theorem writeChildren_cons (depth : Nat) (e : Element) (more : List Element) :
    writeChildren depth (e :: more) =
      newLine depth ++ (e.write depth ++ writeChildren depth more) := by
  rw [writeChildren, List.append_assoc]

/-- Every written element begins with its name. -/
theorem Element.Writable.exists_write_eq {e : Element} (h : e.Writable) (depth : Nat) :
    ∃ tail, e.write depth = '<' :: (e.name ++ tail) := by
  cases h with
  | @leaf name attributes text =>
      by_cases htext : text = []
      · subst htext
        exact ⟨_, write_leaf_nil depth name attributes⟩
      · rw [write_leaf htext, startTag, List.cons_append, List.append_assoc]
        exact ⟨_, rfl⟩
  | @branch name attributes children =>
      by_cases hchildren : children = []
      · subst hchildren
        exact ⟨_, write_leaf_nil depth name attributes⟩
      · rw [write_branch hchildren, startTag, List.cons_append, List.append_assoc]
        exact ⟨_, rfl⟩

theorem Element.Writable.isPlainName_name {e : Element} (h : e.Writable) : isPlainName e.name := by
  cases h with
  | leaf hname => exact hname
  | branch hname => exact hname

theorem escapeText_newLine (depth : Nat) : escapeText (newLine depth) = newLine depth := by
  have hblanks : ∀ n, escapeText (List.replicate n ' ') = List.replicate n ' ' := by
    intro n
    induction n with
    | zero => rfl
    | succ n ih =>
        rw [List.replicate_succ, escapeText_cons, ih]
        rfl
  rw [newLine, escapeText_cons, hblanks]
  rfl

/-! ### Characters of the written form

Around the texts of a document stand characters that it can hold, and among them
no carriage return. -/

theorem mem_plainName {name : Text} (hname : isPlainName name) {c : Char} (hc : c ∈ name) :
    isDocumentChar c ∧ c ≠ '\r' := by
  obtain ⟨-, -, -, -, -, -, hreturn, -, hdocument⟩ :=
    ne_of_isAlpha ((isPlainName_iff.1 hname).2.1 c hc)
  exact ⟨hdocument, hreturn⟩

theorem mem_startTag {name : Text} {attributes : List (Text × Text)} (hname : isPlainName name)
    (hattributes : arePlain attributes) (hvalues : ∀ a ∈ attributes, ∀ c ∈ a.2, isDocumentChar c)
    (isEmpty : Bool) {c : Char} (hc : c ∈ startTag name attributes isEmpty) :
    isDocumentChar c ∧ c ≠ '\r' := by
  simp only [startTag, List.mem_cons, List.mem_append, writeAttributes, List.mem_flatMap] at hc
  rcases hc with rfl | hc | ⟨a, ha, hc⟩ | hc
  · decide
  · exact mem_plainName hname hc
  · rcases hc with ((rfl | hc) | rfl | rfl | hc) | rfl | hc
    · decide
    · exact mem_plainName ((arePlain_iff.1 hattributes).1 a ha) hc
    · decide
    · decide
    · obtain ⟨-, hreturn, hdocument⟩ := mem_escapeValue hc
      exact ⟨hdocument.elim id fun hmem => hvalues a ha c hmem, hreturn⟩
    · decide
    · exact absurd hc List.not_mem_nil
  · cases isEmpty with
    | true =>
        change c ∈ [' ', '/', '>'] at hc
        simp only [List.mem_cons, List.not_mem_nil, or_false] at hc
        rcases hc with rfl | rfl | rfl <;> decide
    | false =>
        obtain rfl : c = '>' := List.mem_singleton.1 hc
        decide

theorem mem_endTag {name : Text} (hname : isPlainName name) {c : Char} (hc : c ∈ endTag name) :
    isDocumentChar c ∧ c ≠ '\r' := by
  simp only [endTag, List.mem_cons, List.mem_append, List.not_mem_nil, or_false] at hc
  rcases hc with rfl | rfl | hc | rfl
  · decide
  · decide
  · exact mem_plainName hname hc
  · decide

theorem mem_newLine {depth : Nat} {c : Char} (hc : c ∈ newLine depth) :
    isDocumentChar c ∧ c ≠ '\r' := by
  rw [newLine, List.mem_cons, List.mem_replicate] at hc
  rcases hc with rfl | ⟨_, rfl⟩ <;> decide

theorem mem_writeChildren {depth : Nat} {es : List Element} {c : Char}
    (hc : c ∈ writeChildren depth es) : c ∈ newLine depth ∨ ∃ e ∈ es, c ∈ e.write depth := by
  induction es with
  | nil => simp [writeChildren] at hc
  | cons e more ih =>
      rw [writeChildren_cons, List.mem_append, List.mem_append] at hc
      rcases hc with hc | hc | hc
      · exact Or.inl hc
      · exact Or.inr ⟨e, List.mem_cons_self, hc⟩
      · refine (ih hc).imp id ?_
        rintro ⟨e', he', hc'⟩
        exact ⟨e', List.mem_cons_of_mem _ he', hc'⟩

/-- A document can hold every character of a written element. -/
theorem Element.Writable.isDocumentChar_write {e : Element} (h : e.Writable) (depth : Nat) :
    ∀ c ∈ e.write depth, isDocumentChar c := by
  induction h generalizing depth with
  | @leaf name attributes text hname hattributes hvalues htext =>
      intro c hc
      by_cases hnil : text = []
      · subst hnil
        rw [write_leaf_nil] at hc
        exact (mem_startTag hname hattributes hvalues true hc).1
      · rw [write_leaf hnil, List.mem_append, List.mem_append] at hc
        rcases hc with hc | hc | hc
        · exact (mem_startTag hname hattributes hvalues false hc).1
        · exact isDocumentChar_of_mem_escapeText htext c hc
        · exact (mem_endTag hname hc).1
  | @branch name attributes children hname hattributes hvalues _ ih =>
      intro c hc
      by_cases hnil : children = []
      · subst hnil
        have hc : c ∈ (Element.leaf name attributes []).write depth := hc
        rw [write_leaf_nil] at hc
        exact (mem_startTag hname hattributes hvalues true hc).1
      · rw [write_branch hnil, List.mem_append, List.mem_append, List.mem_append] at hc
        rcases hc with hc | hc | hc | hc
        · exact (mem_startTag hname hattributes hvalues false hc).1
        · rcases mem_writeChildren hc with hc | ⟨e, he, hc⟩
          · exact (mem_newLine hc).1
          · exact ih e he _ c hc
        · exact (mem_newLine hc).1
        · exact (mem_endTag hname hc).1

theorem unifyLineEnds_newLine_append (depth : Nat) (rest : Text) :
    unifyLineEnds (newLine depth ++ rest) = newLine depth ++ unifyLineEnds rest :=
  unifyLineEnds_append_of_notMem rest fun hmem => (mem_newLine hmem).2 rfl

theorem unifyLineEnds_writeChildren (depth : Nat) {es : List Element}
    (h : ∀ e ∈ es, ∀ rest, unifyLineEnds (e.write depth ++ rest) =
      (e.mapText unifyLineEnds).write depth ++ unifyLineEnds rest) (rest : Text) :
    unifyLineEnds (writeChildren depth es ++ rest) =
      writeChildren depth (es.map (Element.mapText unifyLineEnds)) ++ unifyLineEnds rest := by
  induction es with
  | nil => rfl
  | cons e more ih =>
      have hmore := ih fun e he => h e (List.mem_cons_of_mem _ he)
      rw [List.map_cons, writeChildren_cons, writeChildren_cons, List.append_assoc,
        List.append_assoc, unifyLineEnds_newLine_append, h e List.mem_cons_self, hmore]
      simp only [List.append_assoc]

/-- Unifying the line ends of a written element unifies those of its texts, and
nothing else. -/
theorem Element.Writable.unifyLineEnds_write {e : Element} (h : e.Writable) (depth : Nat)
    (rest : Text) :
    unifyLineEnds (e.write depth ++ rest) =
      (e.mapText unifyLineEnds).write depth ++ unifyLineEnds rest := by
  induction h generalizing depth rest with
  | @leaf name attributes text hname hattributes hvalues _ =>
      have hstart : ∀ isEmpty, '\r' ∉ startTag name attributes isEmpty := fun isEmpty hmem =>
        (mem_startTag hname hattributes hvalues isEmpty hmem).2 rfl
      rw [mapText_leaf]
      by_cases hnil : text = []
      · subst hnil
        rw [show unifyLineEnds [] = [] from rfl, write_leaf_nil,
          unifyLineEnds_append_of_notMem _ (hstart true)]
      · have hend : '\r' ∉ endTag name := fun hmem => (mem_endTag hname hmem).2 rfl
        -- a carriage return at the end of the text does not meet a line feed in the end tag
        have htext : unifyLineEnds (escapeText text ++ (endTag name ++ rest)) =
            escapeText (unifyLineEnds text) ++ (endTag name ++ unifyLineEnds rest) := by
          rw [← unifyLineEnds_append_of_notMem rest hend, ← unifyLineEnds_escapeText]
          exact unifyLineEnds_append_cons _ _ (by decide)
        rw [write_leaf hnil, write_leaf (unifyLineEnds_ne_nil hnil), List.append_assoc,
          unifyLineEnds_append_of_notMem _ (hstart false), List.append_assoc, htext]
        simp only [List.append_assoc]
  | @branch name attributes children hname hattributes hvalues _ ih =>
      have hstart : ∀ isEmpty, '\r' ∉ startTag name attributes isEmpty := fun isEmpty hmem =>
        (mem_startTag hname hattributes hvalues isEmpty hmem).2 rfl
      have hend : '\r' ∉ endTag name := fun hmem => (mem_endTag hname hmem).2 rfl
      rw [mapText_branch rfl]
      by_cases hnil : children = []
      · subst hnil
        have hleaf : Element.branch name attributes [] = .leaf name attributes [] := rfl
        rw [List.map_nil, hleaf, write_leaf_nil, unifyLineEnds_append_of_notMem _ (hstart true)]
      · have hmap : children.map (Element.mapText unifyLineEnds) ≠ [] := by simpa using hnil
        have hchildren := unifyLineEnds_writeChildren (depth + 1)
          (fun e he rest => ih e he (depth + 1) rest) (newLine depth ++ (endTag name ++ rest))
        rw [unifyLineEnds_newLine_append, unifyLineEnds_append_of_notMem rest hend] at hchildren
        rw [write_branch hnil, write_branch hmap, List.append_assoc,
          unifyLineEnds_append_of_notMem _ (hstart false), List.append_assoc, List.append_assoc,
          hchildren]
        simp only [List.append_assoc]

end DocPress.Xml
