import DocPress.Proofs.Docstring.Lines
import DocPress.Proofs.Docstring.Tree
import Mathlib.Data.List.Forall2

/-!
# Signatures of methods

The scan records as the signature of a method the physical line that has its number.  That
line exists, and it is the line on which the first keyword of the method stands, with nothing
but blanks before it (`Declared`).  The words of a function are found in the text itself: they
are carried from the tokens to the text that was read (`Laid.beginsWith`), and from there over
the line end that was added (`BeginsWith.of_feed`) and the line ends that were unified
(`BeginsWith.of_unifyLineEnds`).
-/

namespace DocPress.Docstring

open Text

/-! ### Words in the text and in what is read of it -/

/-- A line end at the very end of a text does not belong to its words. -/
theorem BeginsWith.of_feed {ws : List Text} {u t : Text} (h : BeginsWith ws u)
    (hu : u = t ++ ['\n']) : BeginsWith ws t := by
  induction h generalizing t with
  | @last w after hw =>
      rcases List.eq_nil_or_concat after with rfl | ⟨more, c, rfl⟩
      · refine absurd ?_ hw.notMem_feed
        rw [List.append_nil] at hu
        simp [hu]
      · rw [List.concat_eq_append, ← List.append_assoc] at hu
        obtain ⟨rfl, -⟩ := List.append_inj' hu rfl
        refine .last ⟨hw.ne_nil, hw.letters, fun d hd => hw.ends d ?_⟩
        cases more with
        | nil => cases hd
        | cons e more => exact hd
  | @cons w gap rest ws hw hgap htail ih =>
      obtain ⟨more, c, rfl⟩ := (List.eq_nil_or_concat rest).resolve_left htail.ne_nil
      rw [List.concat_eq_append, ← List.append_assoc, ← List.append_assoc] at hu
      obtain ⟨rfl, hc⟩ := List.append_inj' hu rfl
      cases hc
      have htail' : BeginsWith ws more := ih (by simp)
      rw [List.append_assoc]
      refine .cons ⟨hw.ne_nil, hw.letters, fun d hd => hw.ends d ?_⟩ hgap htail'
      obtain ⟨e, es, hes⟩ := List.exists_cons_of_ne_nil htail'.ne_nil
      rw [hes] at hd ⊢
      cases gap with
      | nil => exact hd
      | cons f gap => exact hd

/-- The words stand in a text as they stand in it with unified line ends. -/
theorem BeginsWith.of_unifyLineEnds {ws : List Text} {u t : Text} (h : BeginsWith ws u)
    (hu : unifyLineEnds t = u) : BeginsWith ws t := by
  have hends : ∀ {z b : Text}, unifyLineEnds z = b → (∀ c ∈ b.head?, isWordPart c = false) →
      ∀ c ∈ z.head?, isWordPart c = false := by
    rintro z b rfl hb c hc
    by_cases hreturn : c = '\r'
    · rw [hreturn]
      decide
    · refine hb c ?_
      rw [head?_unifyLineEnds, hc, Option.map_some, if_neg hreturn]
      rfl
  induction h generalizing t with
  | last hw =>
      obtain ⟨z, rfl, hz⟩ := exists_of_unifyLineEnds_eq_word hw.notMem_feed hu
      exact .last ⟨hw.ne_nil, hw.letters, hends hz hw.ends⟩
  | cons hw hgap _ ih =>
      obtain ⟨z, rfl, hz⟩ := exists_of_unifyLineEnds_eq_word hw.notMem_feed hu
      have hw' := hends hz hw.ends
      obtain ⟨g, y, rfl, rfl, hy⟩ := exists_of_unifyLineEnds_eq_append hz
      refine .cons ⟨hw.ne_nil, hw.letters, hw'⟩ (fun c hc => ?_) (ih hy)
      rcases mem_unifyLineEnds hc with rfl | hc
      · decide
      · exact hgap c hc

variable {data : CharacterData}

/-! ### Where a function is declared -/

/-- The first keyword of a function. -/
def keywordOf (async : Bool) : Text := if async then "async".toList else "def".toList

/-- The words that a function begins with. -/
def headOf (async : Bool) (name : Text) : List Text :=
  if async then ["async".toList, "def".toList, name] else ["def".toList, name]

/-- A function of the name that is written so is declared in a text: the words that it begins
with stand there, the first of them on the physical line `physical`, which has the number
`line`, behind blanks only. -/
structure Declared (content : Text) (line : Nat) (name : Text) (async : Bool) (physical : Text) :
    Prop where
  /-- The keyword is a token of the text and no part of a string or a comment. -/
  token : ∃ tok ∈ (lex 1 content).tokens, tok.kind.isWord = true ∧ tok.text = keywordOf async ∧
    tok.line = line
  /-- Before the keyword stand all lines up to its own, and of its own only blanks. -/
  place : ∃ before rest margin tail, content = before ++ rest ∧
    BeginsWith (headOf async name) rest ∧ (physicalLines before).length = line ∧
    (physicalLines before).getLast? = some margin ∧ (∀ c ∈ margin, isInlineBlank c = true) ∧
    physical = margin ++ (keywordOf async ++ tail)
  one_le : 1 ≤ line
  physical_eq : (physicalLines content)[line - 1]? = some physical

theorem BeginsWith.exists_append {w t : Text} {ws : List Text} (h : BeginsWith (w :: ws) t) :
    '\n' ∉ w ∧ ∃ tail, t = w ++ tail := by
  cases h with
  | last hw => exact ⟨hw.notMem_feed, _, rfl⟩
  | cons hw => exact ⟨hw.notMem_feed, _, rfl⟩

theorem exists_of_readable_eq {content a u : Text} {ws : List Text} (hu : BeginsWith ws u)
    (h : readable content = a ++ u) :
    ∃ u', unifyLineEnds content = a ++ u' ∧ BeginsWith ws u' := by
  unfold readable at h
  dsimp only at h
  split at h
  · exact ⟨u, h, hu⟩
  · obtain ⟨v, c, rfl⟩ := (List.eq_nil_or_concat u).resolve_left hu.ne_nil
    rw [List.concat_eq_append, ← List.append_assoc] at h
    obtain ⟨hinit, hc⟩ := List.append_inj' h rfl
    cases hc
    exact ⟨v, hinit, hu.of_feed (by simp)⟩

/-- The two ways to count lines agree: behind an open line stands the physical line whose
index is the number of line feeds before it, and the same place is found in the text. -/
theorem exists_physicalLine {content a w tail : Text} (hopen : LineOpen a) (hw : '\n' ∉ w)
    (h : unifyLineEnds content = a ++ (w ++ tail)) :
    ∃ before rest margin more, content = before ++ rest ∧ unifyLineEnds rest = w ++ tail ∧
      (physicalLines before).length = a.count '\n' + 1 ∧
      (physicalLines before).getLast? = some margin ∧ (∀ c ∈ margin, isInlineBlank c = true) ∧
      (physicalLines content)[a.count '\n']? = some (margin ++ (w ++ more)) := by
  obtain ⟨before, rest, hcontent, hbefore, hrest⟩ := exists_of_unifyLineEnds_eq_append h
  obtain ⟨front, margin, rfl, hfront, hmargin⟩ := hopen
  -- the margin lies on one line, so the line feeds before the place are those of whole lines
  have hfeed : '\n' ∉ margin := fun hmem => absurd (hmargin _ hmem) (by decide)
  have hcount : (front ++ margin).count '\n' = front.count '\n' := by
    rw [List.count_append, List.count_eq_zero_of_not_mem hfeed, Nat.add_zero]
  have hlength : (physicalLines before).length = front.count '\n' + 1 := by
    rw [physicalLines_eq, length_splitAt, hbefore, hcount]
  obtain ⟨piece, others, hpiece⟩ := exists_splitAt '\n' tail
  rw [hcount]
  refine ⟨before, rest, margin, piece, hcontent, hrest, hlength, ?_, hmargin, ?_⟩
  · rw [List.getLast?_eq_getElem?, hlength, Nat.add_sub_cancel, physicalLines_eq, hbefore]
    simpa using getElem?_splitAt hfront hfeed (rfl : splitAt '\n' [] = [[]])
  · have hx : '\n' ∉ margin ++ w := by simp [hfeed, hw]
    have hcut : unifyLineEnds content = front ++ (margin ++ w ++ tail) := by
      rw [h]
      simp only [List.append_assoc]
    rw [physicalLines_eq, hcut, getElem?_splitAt hfront hx hpiece, List.append_assoc]

theorem headOf_eq_cons (async : Bool) (name : Text) :
    ∃ ws, headOf async name = keywordOf async :: ws := by
  cases async
  · exact ⟨_, rfl⟩
  · exact ⟨_, rfl⟩

/-- A keyword that stands first on its line, with the words of a function behind it, declares
the function on that line. -/
theorem Lies.exists_declared {content name : Text} {async : Bool} {prev : Option Token}
    {done gap after : Text} {tok : Token}
    (hlies : Lies 1 (readable content) prev done gap tok after) (hopens : opensAfter prev = true)
    (hmem : tok ∈ (lex 1 content).tokens) (hword : tok.kind.isWord = true)
    (htext : tok.text = keywordOf async)
    (hbegins : BeginsWith (headOf async name) (tok.text ++ after)) :
    ∃ physical, Declared content tok.line name async physical := by
  have hread : readable content = (done ++ gap) ++ (tok.text ++ after) := by
    rw [hlies.text_eq, List.append_assoc]
  obtain ⟨u, hunified, hu⟩ := exists_of_readable_eq hbegins hread
  obtain ⟨ws, hws⟩ := headOf_eq_cons async name
  obtain ⟨hkeyword, tail, rfl⟩ := (hws ▸ hu).exists_append
  obtain ⟨before, rest, margin, more, hcontent, hrest, hlength, hlast, hmargin, hphysical⟩ :=
    exists_physicalLine (hlies.lineOpen hopens) hkeyword hunified
  have hline : tok.line = (done ++ gap).count '\n' + 1 := by rw [hlies.line_eq, Nat.add_comm]
  refine ⟨margin ++ (keywordOf async ++ more), ⟨tok, hmem, hword, htext, rfl⟩,
    ⟨before, rest, margin, more, hcontent, hu.of_unifyLineEnds hrest, ?_, hlast, hmargin, rfl⟩,
    by omega, ?_⟩
  · rw [hlength, hline]
  · rw [hline, Nat.add_sub_cancel, hphysical]

/-! ### From tokens to the text -/

theorem tokens_sourceOf (data : CharacterData) (content : Text) (i : Nat) :
    (sourceOf data content).tokens[i]? = (lex 1 content).tokens[i]? := by
  rw [sourceOf, List.getElem?_toArray]

theorem opensAfter_of_starts {content : Text} {pos : Nat} {tok : Token}
    (hstarts : (sourceOf data content).Starts pos)
    (htok : (lex 1 content).tokens[pos]? = some tok) :
    opensAfter (((lex 1 content).tokens.take pos).getLast?.or none) = true := by
  rw [Option.or_none]
  cases pos with
  | zero => rfl
  | succ p =>
      have hp : p < (lex 1 content).tokens.length := by
        have := (List.getElem?_eq_some_iff.1 htok).1
        omega
      have hlast : ((lex 1 content).tokens.take (p + 1)).getLast? =
          some (lex 1 content).tokens[p] := by
        rw [List.take_succ_eq_append_getElem hp, List.getLast?_append]
        rfl
      rw [hlast]
      refine hstarts p _ rfl ?_
      rw [tokens_sourceOf]
      exact List.getElem?_eq_getElem hp

/-- Words that begin a statement are declared on their physical line. -/
theorem exists_declared_of_words {content name : Text} {async : Bool} {pos : Nat} {tok : Token}
    {ts more : List Token} (hstarts : (sourceOf data content).Starts pos)
    (hdrop : (lex 1 content).tokens.drop pos = tok :: ts ++ more)
    (hwords : ∀ w ∈ tok :: ts, w.kind.isWord = true)
    (htexts : (tok :: ts).map Token.text = headOf async name) :
    ∃ physical, Declared content tok.line name async physical := by
  have htext : tok.text = keywordOf async := by
    cases async <;> exact (List.cons.inj htexts).1
  have hsplit : (lex 1 content).tokens =
      (lex 1 content).tokens.take pos ++ (tok :: ts ++ more) := by
    rw [← hdrop, List.take_append_drop]
  have htok : (lex 1 content).tokens[pos]? = some tok := by
    rw [← Nat.add_zero pos, ← List.getElem?_drop, hdrop]
    rfl
  have hopens := opensAfter_of_starts hstarts htok
  have hall := laid_lex 1 content
  rw [hsplit] at hall
  obtain ⟨done, hlaid, houter⟩ := hall.drop fun _ => rfl
  obtain ⟨gap, after, hlies, hbegins⟩ := hlaid.beginsWith (houter hopens) hwords
  rw [htexts] at hbegins
  exact hlies.exists_declared hopens (List.mem_of_getElem? htok) (hwords tok List.mem_cons_self)
    htext hbegins

theorem isWord_of_isDef {content : Text} {tok : Token} (hmem : tok ∈ (lex 1 content).tokens)
    (h : tok.isDef = true) : tok.kind.isWord = true ∧ tok.text = "def".toList := by
  obtain ⟨hkind, htext⟩ : (tok.kind = .op ∨ tok.kind = .keyword) ∧ tok.text = "def".toList := by
    simpa [Token.isDef] using h
  rcases hkind with hop | hkeyword
  · -- an operator does not begin like a word
    obtain ⟨_, _, _, _, hlies⟩ := (laid_lex 1 content).exists_lies hmem (by rw [hop]; rfl)
    exact absurd (hlies.operator hop 'd' (by rw [htext]; rfl)) (by decide)
  · exact ⟨by rw [hkeyword]; rfl, htext⟩

theorem text_of_async {content : Text} {tok : Token} (hmem : tok ∈ (lex 1 content).tokens)
    (h : tok.kind = .async) : tok.text = "async".toList := by
  obtain ⟨_, _, _, _, hlies⟩ := (laid_lex 1 content).exists_lies hmem (by rw [h]; rfl)
  have hkind := hlies.kind_eq (by rw [h]; rfl)
  rw [h] at hkind
  unfold wordKind at hkind
  split_ifs at hkind with _ hasync
  exact hasync

theorem drop_eq_cons {α : Type} {l : List α} {i : Nat} {a : α} (h : l[i]? = some a) :
    l.drop i = a :: l.drop (i + 1) := by
  obtain ⟨hi, rfl⟩ := List.getElem?_eq_some_iff.1 h
  exact List.drop_eq_getElem_cons hi

/-- A function that was read where a statement may begin is declared there, and has the name
that is written there. -/
theorem FunctionAt.exists_declared {content : Text} {line : Nat} {name : Text}
    (h : FunctionAt (sourceOf data content) line name) :
    ∃ written async physical, data.name written = name ∧
      Declared content line written async physical := by
  cases h with
  | @plain pos keyword named hstarts hkeyword hnamed hdef hname hline hnameEq =>
      rw [tokens_sourceOf] at hkeyword hnamed
      obtain ⟨hword, htext⟩ := isWord_of_isDef (List.mem_of_getElem? hkeyword) hdef
      have hdrop : (lex 1 content).tokens.drop pos =
          keyword :: [named] ++ (lex 1 content).tokens.drop (pos + 1 + 1) := by
        rw [drop_eq_cons hkeyword, drop_eq_cons hnamed]
        rfl
      have hnamedWord : named.kind.isWord = true := by rw [hname]; rfl
      have hwords : ∀ w ∈ keyword :: [named], w.kind.isWord = true := by simp [hword, hnamedWord]
      have hhead : (keyword :: [named]).map Token.text = headOf false named.text := by
        simp [htext, headOf]
      obtain ⟨physical, hdeclared⟩ := exists_declared_of_words hstarts hdrop hwords hhead
      rw [hline] at hdeclared
      exact ⟨named.text, false, physical, hnameEq, hdeclared⟩
  | @async pos front keyword named hstarts hfront hkeyword hnamed hasync hdef hname hline hnameEq =>
      rw [tokens_sourceOf] at hfront hkeyword hnamed
      have hfrontText := text_of_async (List.mem_of_getElem? hfront) hasync
      obtain ⟨hword, htext⟩ := isWord_of_isDef (List.mem_of_getElem? hkeyword) hdef
      have hdrop : (lex 1 content).tokens.drop pos =
          front :: [keyword, named] ++ (lex 1 content).tokens.drop (pos + 1 + 1 + 1) := by
        rw [drop_eq_cons hfront, drop_eq_cons hkeyword, drop_eq_cons hnamed]
        rfl
      have hfrontWord : front.kind.isWord = true := by rw [hasync]; rfl
      have hnamedWord : named.kind.isWord = true := by rw [hname]; rfl
      have hwords : ∀ w ∈ front :: [keyword, named], w.kind.isWord = true := by
        simp [hfrontWord, hword, hnamedWord]
      have hhead : (front :: [keyword, named]).map Token.text = headOf true named.text := by
        simp [hfrontText, htext, headOf]
      obtain ⟨physical, hdeclared⟩ := exists_declared_of_words hstarts hdrop hwords hhead
      rw [hline] at hdeclared
      exact ⟨named.text, true, physical, hnameEq, hdeclared⟩

/-! ### Methods -/

/-- The statements of the body of a class; none for a node that is no class. -/
def Node.classBody (n : Node) : List Node :=
  if n.isForm .classDef then Node.flatParts [n.part 2] else []

/-- The methods of the classes at the top level of a tree, in order. -/
def Node.methods (tree : Node) : List Node :=
  (Node.flatParts [tree]).flatMap fun n => n.classBody.filter (·.isForm .functionDef)

section

variable {src : Source}

theorem Node.Sound.flat {n : Node} (h : n.Sound src) (fuel : Nat) :
    ∀ m ∈ Node.flat fuel n, m.Sound src := by
  induction fuel generalizing n with
  | zero => simp [Node.flat]
  | succ fuel ih =>
      intro m hm
      unfold Node.flat at hm
      split at hm
      · cases hm
      · cases hm
      · next heq =>
          cases heq
          cases h with
          | list h =>
              obtain ⟨item, hitem, hm⟩ := List.mem_flatMap.1 hm
              exact ih (h item hitem) m hm
      · exact List.mem_singleton.1 hm ▸ h

theorem Node.Sound.flatParts {n : Node} (h : n.Sound src) :
    ∀ m ∈ Node.flatParts [n], m.Sound src := by
  intro m hm
  rw [Node.flatParts, List.flatMap_singleton] at hm
  exact h.flat _ m hm

theorem Form.ne_of_isDeclaration {form : Form} (h : form.isDeclaration = false) :
    form ≠ .functionDef ∧ form ≠ .classDef := by
  simpa [Form.isDeclaration] using h

/-- A class in the tree of a text has its three parts. -/
theorem Node.Sound.eq_classDef {n : Node} (h : n.Sound src) (hn : n.isForm .classDef = true) :
    ∃ line name arguments block, n = .node .classDef line [name, arguments, block] ∧
      block.Sound src := by
  cases h with
  | klass h => exact ⟨_, _, _, _, rfl, h⟩
  | other h => exact absurd (of_decide_eq_true hn) (Form.ne_of_isDeclaration h).2
  | _ => cases hn

/-- A function in the tree of a text has its three parts. -/
theorem Node.Sound.eq_functionDef {n : Node} (h : n.Sound src) (hn : n.isForm .functionDef = true) :
    ∃ line name result block, n = .node .functionDef line [name, result, block] ∧
      FunctionAt src line name.word := by
  cases h with
  | function h => exact ⟨_, _, _, _, rfl, h⟩
  | other h => exact absurd (of_decide_eq_true hn) (Form.ne_of_isDeclaration h).1
  | _ => cases hn

theorem Node.Sound.classBody {n : Node} (h : n.Sound src) : ∀ m ∈ n.classBody, m.Sound src := by
  unfold Node.classBody
  split
  · next hn =>
      obtain ⟨line, name, arguments, block, rfl, hblock⟩ := h.eq_classDef hn
      exact hblock.flatParts
  · simp

end

theorem exists_declared_of_mem_methods {content : Text} {tree n : Node}
    (h : parseModule data content = .ok tree) (hn : n ∈ tree.methods) :
    ∃ written async physical, data.name written = (n.part 0).word ∧
      Declared content n.line written async physical := by
  obtain ⟨c, hc, hn⟩ := List.mem_flatMap.1 hn
  obtain ⟨hn, hform⟩ := List.mem_filter.1 hn
  have hsound := ((sound_of_parseModule h).flatParts c hc).classBody n hn
  obtain ⟨line, name, result, block, rfl, hat⟩ := hsound.eq_functionDef hform
  exact hat.exists_declared

/-! ### What the scan records -/

theorem forall₂_of_mapM_eq_ok {ε α β : Type} {f : α → Except ε β} {xs : List α} {ys : List β}
    (h : xs.mapM f = .ok ys) : List.Forall₂ (fun x y => f x = .ok y) xs ys := by
  induction xs generalizing ys with
  | nil =>
      rw [List.mapM_nil] at h
      cases h
      exact .nil
  | cons x xs ih =>
      rw [List.mapM_cons] at h
      obtain ⟨y, hy, h⟩ := exists_of_bind_eq_ok h
      obtain ⟨ys', hys, h⟩ := exists_of_bind_eq_ok h
      cases h
      exact .cons hy (ih hys)

/-- What a method records of a function: its name, and the line that has its number. -/
structure Records (lines : Array Text) (n : Node) (m : Method) : Prop where
  name_eq : m.name = (n.part 0).word
  signature_eq : m.signature = trim ((lines[n.line - 1]?).getD [])

theorem forall₂_records_of_methodsOf {src : Source} {lines : Array Text} {n : Node}
    {ms : List Method} (hn : n.Sound src) (h : methodsOf lines n = .ok ms) :
    List.Forall₂ (Records lines) ([n].filter (·.isForm .functionDef)) ms := by
  unfold methodsOf at h
  split at h
  · -- the result is read when there is one
    dsimp only at h
    split at h
    all_goals
      obtain ⟨returnType, -, h⟩ := exists_of_bind_eq_ok h
      cases h
      exact .cons ⟨rfl, rfl⟩ .nil
  · next hne =>
      cases h
      have hform : ¬ n.isForm .functionDef = true := fun hform => by
        obtain ⟨line, name, result, block, rfl, -⟩ := hn.eq_functionDef hform
        exact hne _ _ _ _ rfl
      simp [hform]

theorem forall₂_records_of_classOf? {src : Source} {lines : Array Text} {n : Node}
    {c : Option TypeDecl} (hn : n.Sound src) (h : classOf? lines n = .ok c) :
    List.Forall₂ (Records lines) (n.classBody.filter (·.isForm .functionDef))
      (c.toList.flatMap TypeDecl.methods) := by
  have hbody := hn.classBody
  unfold classOf? at h
  split at h
  · next line name arguments block =>
      obtain ⟨members, hmembers, h⟩ := exists_of_bind_eq_ok h
      cases h
      have hpairs := (List.forall₂_and_left _ _).2 ⟨hbody, forall₂_of_mapM_eq_ok hmembers⟩
      have hall : List.Forall₂ (Records lines)
          ((Node.flatParts [block]).flatMap fun s => [s].filter (·.isForm .functionDef))
          (members.flatMap Prod.snd) :=
        List.rel_flatMap hpairs fun s member ⟨hs, hmember⟩ => by
          obtain ⟨fields, -, hmember⟩ := exists_of_bind_eq_ok hmember
          obtain ⟨methods, hmethods, hmember⟩ := exists_of_bind_eq_ok hmember
          cases hmember
          exact forall₂_records_of_methodsOf hs hmethods
      rw [← List.filter_flatMap, List.flatMap_singleton'] at hall
      simpa [Node.classBody, Node.isForm, Node.part] using hall
  · next hne =>
      cases h
      have hform : ¬ n.isForm .classDef = true := fun hform => by
        obtain ⟨line, name, arguments, block, rfl, -⟩ := hn.eq_classDef hform
        exact hne _ _ _ _ rfl
      simp [Node.classBody, hform]

theorem exists_tree_of_classesOf {content : Text} {classes : List TypeDecl}
    (h : classesOf data content = .ok classes) : ∃ tree, parseModule data content = .ok tree := by
  unfold classesOf at h
  split at h
  · cases h
  · split at h
    · cases h
    · next tree htree => exact ⟨tree, htree⟩

theorem forall₂_records_of_classesOf {content : Text} {tree : Node} {classes : List TypeDecl}
    (htree : parseModule data content = .ok tree) (h : classesOf data content = .ok classes) :
    List.Forall₂ (Records (physicalLines content).toArray) tree.methods
      (classes.flatMap TypeDecl.methods) := by
  unfold classesOf at h
  rw [htree] at h
  split at h
  · cases h
  · dsimp only at h
    split at h
    · cases h
    · next found hfound =>
        cases h
        have hpairs := (List.forall₂_and_left _ _).2
          ⟨(sound_of_parseModule htree).flatParts, forall₂_of_mapM_eq_ok hfound⟩
        have hall : List.Forall₂ (Records (physicalLines content).toArray) tree.methods
            (found.flatMap fun c => c.toList.flatMap TypeDecl.methods) :=
          List.rel_flatMap hpairs fun n c ⟨hn, hc⟩ => forall₂_records_of_classOf? hn hc
        rw [← List.flatMap_assoc] at hall
        rwa [List.filterMap_eq_flatMap_toList]

theorem Declared.keyword_prefix {content name physical : Text} {line : Nat} {async : Bool}
    (h : Declared content line name async physical) : keywordOf async <+: trim physical := by
  obtain ⟨before, rest, margin, tail, -, -, -, -, hmargin, rfl⟩ := h.place
  have hblanks : AreBlanks margin := fun c hc => by
    have := hmargin c hc
    simp only [isInlineBlank, Bool.or_eq_true, decide_eq_true_eq] at this
    rcases this with (rfl | rfl) | rfl <;> decide
  have hkeyword : IsTrimmed (keywordOf async) ∧ keywordOf async ≠ [] := by
    cases async <;> decide
  rw [trim_append_left hblanks, trim_trimmed_append hkeyword.1 hkeyword.2]
  exact List.prefix_append _ _

/-- Every method of a class at the top level is declared on the physical line that has its
number, so the line exists, and with nothing but blanks before its first keyword.  The scan
records the methods in order, each with the name that is written there and, as its signature,
that line without the blanks around it, which so begins with the keyword. -/
theorem signature_on_line {data : CharacterData} {content : Text} {tree : Node}
    (h : parseModule data content = .ok tree) :
    (∀ n ∈ tree.methods, ∃ written async physical, data.name written = (n.part 0).word ∧
      Declared content n.line written async physical ∧
      n.line - 1 < (physicalLines content).length ∧ keywordOf async <+: trim physical) ∧
    ∀ classes, classesOf data content = .ok classes →
      List.Forall₂ (fun n m => ∃ written async physical,
          data.name written = (n.part 0).word ∧ Declared content n.line written async physical ∧
          m.name = data.name written ∧ m.signature = trim physical ∧
          keywordOf async <+: m.signature)
        tree.methods (classes.flatMap TypeDecl.methods) := by
  have hdeclared : ∀ n ∈ tree.methods, ∃ written async physical,
      data.name written = (n.part 0).word ∧ Declared content n.line written async physical :=
    fun n hn => exists_declared_of_mem_methods h hn
  refine ⟨fun n hn => ?_, fun classes hclasses => ?_⟩
  · obtain ⟨written, async, physical, hname, hd⟩ := hdeclared n hn
    exact ⟨written, async, physical, hname, hd, (List.getElem?_eq_some_iff.1 hd.physical_eq).1,
      hd.keyword_prefix⟩
  · have hall := (List.forall₂_and_left _ _).2 ⟨hdeclared, forall₂_records_of_classesOf h hclasses⟩
    refine hall.imp fun n m ⟨⟨written, async, physical, hname, hd⟩, hrecords⟩ => ?_
    have hsignature : m.signature = trim physical := by
      rw [hrecords.signature_eq, List.getElem?_toArray, hd.physical_eq, Option.getD_some]
    exact ⟨written, async, physical, hname, hd, hrecords.name_eq.trans hname.symm, hsignature,
      hsignature ▸ hd.keyword_prefix⟩

/-- Tables with the name of one character. -/
def oneCharacter : CharacterData where
  named? name := if name = "SNOWMAN".toList then some '☃' else none
  normal := id

/-- A text with all three line ends, in which lines also hold other characters that break
lines elsewhere and a character by its name, and with a keyword whose line goes on behind a
backslash. -/
def mixedLines : Text :=
  ("class A:\r\n '\x0b\x0c\x1c\u0085\u2028\\N\x7bSNOWMAN\x7d'\r def f(): pass\n" ++
    "\x0c async \\\n def g():\r\n  pass\r").toList

theorem signature_on_line_mixed : ∃ tree classes,
    parseModule oneCharacter mixedLines = .ok tree ∧
    classesOf oneCharacter mixedLines = .ok classes ∧
    (classes.flatMap TypeDecl.methods).map Method.signature =
      ["def f(): pass".toList, "async \\".toList] ∧
    List.Forall₂ (fun n m => ∃ written async physical,
        oneCharacter.name written = (n.part 0).word ∧
        Declared mixedLines n.line written async physical ∧
        m.name = oneCharacter.name written ∧ m.signature = trim physical ∧
        keywordOf async <+: m.signature)
      tree.methods (classes.flatMap TypeDecl.methods) := by
  have hsignatures : ((classesOf oneCharacter mixedLines).toOption.map fun classes =>
      (classes.flatMap TypeDecl.methods).map Method.signature) =
      some ["def f(): pass".toList, "async \\".toList] := by decide +kernel
  obtain ⟨classes, hclasses, hsignatures⟩ := Option.map_eq_some_iff.1 hsignatures
  have hscan := eq_ok_of_toOption hclasses
  obtain ⟨tree, hparse⟩ := exists_tree_of_classesOf hscan
  exact ⟨tree, classes, hparse, hscan, hsignatures, (signature_on_line hparse).2 _ hscan⟩

end DocPress.Docstring
