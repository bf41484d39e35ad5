import DocPress.Proofs.Docstring.Reading
import DocPress.Proofs.Text.Words
import Mathlib.Tactic.Tauto

/-!
# Where tokens lie in a text

Every token with a text has the number of the line it begins on: one more than the line
feeds before it.  A token behind one that shapes the lines stands first on its line, behind
blanks only, and between two tokens of one line outside brackets stand only blanks and line
ends behind a backslash.  `Lies` says this of one token and `Laid` of all; `laid_of_step` shows
that every step of the reader lays its tokens so, and `laid_lex` follows for a whole text.
-/

namespace DocPress.Docstring

open Text

/-! ### Where tokens lie -/

/-- The kinds of tokens that shape the lines; they have no text of their own. -/
def TokenKind.isLayout : TokenKind → Bool
  | .newline | .indent | .dedent | .endMarker => true
  | _ => false

/-- The kinds of words. -/
def TokenKind.isWord : TokenKind → Bool
  | .name | .keyword | .async | .await => true
  | _ => false

/-- How many brackets are open after the token before, if there is one. -/
def depthAfter (prev : Option Token) : Nat := (prev.map Token.level).getD 0

/-- Whether a statement may begin here: at the very beginning, and after a token that
shapes the lines. -/
def opensAfter (prev : Option Token) : Bool := (prev.map (·.kind.isLayout)).getD true

/-- A text after which only blanks stand between the beginning of the line and the place
reached. -/
def LineOpen (t : Text) : Prop :=
  ∃ lines margin, t = lines ++ margin ∧ (∀ c ∈ lines.getLast?, c = '\n') ∧
    ∀ c ∈ margin, isInlineBlank c = true

/-- What may stand between two words of a line: blanks, and line ends behind a backslash. -/
def isJoint (c : Char) : Bool := isInlineBlank c || c = '\\' || c = '\n' || c = '\r'

theorem lineOpen_nil : LineOpen [] := ⟨[], [], rfl, by simp, by simp⟩

theorem lineOpen_feed (t : Text) : LineOpen (t ++ ['\n']) :=
  ⟨t ++ ['\n'], [], (List.append_nil _).symm, by simp, by simp⟩

/-- A part of a text that leaves an open line open: blanks, or whole lines. -/
def KeepsOpen (head : Text) : Prop := ∀ t, LineOpen t → LineOpen (t ++ head)

theorem keepsOpen_feed (head : Text) : KeepsOpen (head ++ ['\n']) := fun t _ => by
  rw [← List.append_assoc]
  exact lineOpen_feed _

theorem keepsOpen_blanks {blanks : Text} (hblanks : ∀ c ∈ blanks, isInlineBlank c = true) :
    KeepsOpen blanks := by
  rintro _ ⟨lines, margin, rfl, hlines, hmargin⟩
  refine ⟨lines, margin ++ blanks, List.append_assoc .., hlines, fun c hc => ?_⟩
  exact (List.mem_append.1 hc).elim (hmargin c) (hblanks c)

theorem KeepsOpen.append {head more : Text} (h : KeepsOpen head) (hmore : KeepsOpen more) :
    KeepsOpen (head ++ more) := fun t ht => by
  rw [← List.append_assoc]
  exact hmore _ (h t ht)

/-- A word as it stands in a text: it cannot be longer. -/
structure WholeWord (w after : Text) : Prop where
  ne_nil : w ≠ []
  letters : ∀ c ∈ w, isWordPart c = true
  ends : ∀ c ∈ after.head?, isWordPart c = false

/-- A token with a text lies in the text of `t` between `done ++ gap` and `after`.  It has
the number of the line it begins on; it stands first on that line when the token before
shapes the lines, and behind a joint when the token before is one of the same line. -/
structure Lies (first : Nat) (t : Text) (prev : Option Token) (done gap : Text) (tok : Token)
    (after : Text) : Prop where
  text_eq : t = done ++ (gap ++ (tok.text ++ after))
  line_eq : tok.line = first + (done ++ gap).count '\n'
  lineOpen : opensAfter prev = true → LineOpen (done ++ gap)
  joint : opensAfter prev = false → depthAfter prev = 0 → ∀ c ∈ gap, isJoint c = true
  visible : tok.kind.isLayout = false
  level_eq : tok.kind.isWord = true → tok.level = depthAfter prev
  kind_eq : tok.kind.isWord = true → tok.kind = wordKind tok.text
  whole : tok.kind.isWord = true → WholeWord tok.text after
  operator : tok.kind = .op → ∀ c ∈ tok.text.head?, isWordStart c = false

/-- The tokens lie one after the other in the text of `t`, the first behind `done`. -/
inductive Laid (first : Nat) (t : Text) : Option Token → Text → List Token → Prop
  | nil {prev : Option Token} {done : Text} : Laid first t prev done []
  | layout {prev : Option Token} {done done' : Text} {tok : Token} {ts : List Token}
      (hlayout : tok.kind.isLayout = true) (hlevel : tok.level = 0)
      (htail : Laid first t (some tok) done' ts) : Laid first t prev done (tok :: ts)
  | visible {prev : Option Token} {done gap after : Text} {tok : Token} {ts : List Token}
      (hlies : Lies first t prev done gap tok after)
      (htail : Laid first t (some tok) (done ++ gap ++ tok.text) ts) :
      Laid first t prev done (tok :: ts)

/-- The reader stands behind the token `prev`, which ends with `done`, and has read `gap`
since.  At the very end of the text only the cut is known. -/
structure Between (first : Nat) (t : Text) (prev : Option Token) (done gap : Text) (r : Reader) :
    Prop where
  text_eq : t = done ++ (gap ++ r.rest)
  depth_eq : r.brackets.length = depthAfter prev
  line_eq : r.rest ≠ [] → r.line = first + (done ++ gap).count '\n'
  lineOpen : r.rest ≠ [] → opensAfter prev = true → LineOpen (done ++ gap)
  inLine : opensAfter prev = false → depthAfter prev = 0 → r.atLineStart = false
  joint : opensAfter prev = false → depthAfter prev = 0 → ∀ c ∈ gap, isJoint c = true

section

variable {first : Nat} {t done gap : Text} {prev : Option Token} {r : Reader}

theorem Between.line_eq_of_overLines {head rest : Text} {line : Nat}
    (hb : Between first t prev done gap r) (hread : OverLines r.line r.rest head rest line)
    (hrest : rest ≠ []) : line = first + (done ++ (gap ++ head)).count '\n' := by
  have hne : r.rest ≠ [] := by simp [hread.eq, hrest]
  rw [hread.last_eq hrest, hb.line_eq hne, Nat.add_assoc, ← List.count_append, List.append_assoc]

/-- The reader goes on over a part of the text that makes no token. -/
theorem Between.skip {head rest : Text} {line : Nat} {start : Bool}
    (hb : Between first t prev done gap r) (hread : OverLines r.line r.rest head rest line)
    (hopen : rest ≠ [] → KeepsOpen head)
    (hjoint : opensAfter prev = false → depthAfter prev = 0 →
      start = false ∧ ∀ c ∈ head, isJoint c = true) :
    Between first t prev done (gap ++ head)
      { r with rest := rest, line := line, atLineStart := start } where
  text_eq := by rw [hb.text_eq, hread.eq, List.append_assoc]
  depth_eq := hb.depth_eq
  line_eq := hb.line_eq_of_overLines hread
  lineOpen hrest hopens := by
    have hne : r.rest ≠ [] := by simp [hread.eq, hrest]
    rw [← List.append_assoc]
    exact hopen hrest _ (hb.lineOpen hne hopens)
  inLine hopens hdepth := (hjoint hopens hdepth).1
  joint hopens hdepth c hc :=
    (List.mem_append.1 hc).elim (hb.joint hopens hdepth c) ((hjoint hopens hdepth).2 c)

/-- A token that shapes the lines, with what is read along with it. -/
theorem Between.layout {tok : Token} {head rest : Text} {line : Nat} {start : Bool}
    (hb : Between first t prev done gap r) (hread : OverLines r.line r.rest head rest line)
    (hlayout : tok.kind.isLayout = true) (hlevel : tok.level = r.brackets.length)
    (hopen : rest ≠ [] → LineOpen (done ++ (gap ++ head))) :
    Between first t (some tok) (done ++ (gap ++ head)) []
      { r with rest := rest, line := line, atLineStart := start } where
  text_eq := by simp only [hb.text_eq, hread.eq, List.append_assoc, List.nil_append]
  depth_eq := hlevel.symm
  line_eq hrest := by rw [List.append_nil]; exact hb.line_eq_of_overLines hread hrest
  lineOpen hrest _ := by rw [List.append_nil]; exact hopen hrest
  inLine hopens := by simp [opensAfter, hlayout] at hopens
  joint hopens := by simp [opensAfter, hlayout] at hopens

/-- What the tokens of the later steps do, whatever place they are read from. -/
def LaidFrom (first : Nat) (t : Text) (r : Reader) (later : List Token) : Prop :=
  ∀ prev done gap, Between first t prev done gap r → Laid first t prev done later

theorem LaidFrom.replicate {tok : Token} {later : List Token} (hlater : LaidFrom first t r later)
    (hlayout : tok.kind.isLayout = true) (hlevel : tok.level = r.brackets.length)
    (hbrackets : r.brackets = []) (hb : Between first t prev done gap r)
    (hopen : r.rest ≠ [] → LineOpen (done ++ gap)) (n : Nat) :
    Laid first t prev done (List.replicate n tok ++ later) := by
  induction n generalizing prev done gap with
  | zero => exact hlater prev done gap hb
  | succ n ih =>
      rw [List.replicate_succ, List.cons_append]
      have hnext : Between first t (some tok) (done ++ (gap ++ [])) [] r :=
        hb.layout ((OnLine.nil r.rest).overLines r.line) hlayout hlevel (by rwa [List.append_nil])
      refine .layout hlayout (by rw [hlevel, hbrackets]; rfl) (ih hnext fun hrest => ?_)
      rw [List.append_nil, List.append_nil]
      exact hopen hrest

/-- A token with a text: it lies where the reader stands, and the reader goes on behind it. -/
theorem LaidFrom.visible {tok : Token} {after : Text} {line : Nat} {brackets : List (Char × Nat)}
    {later : List Token}
    (hlater : LaidFrom first t { r with rest := after, line := line, brackets := brackets } later)
    (hb : Between first t prev done gap r) (hstart : r.atLineStart = false)
    (hread : OverLines r.line r.rest tok.text after line) (hrest : r.rest ≠ [])
    (hline : tok.line = r.line) (hlevel : tok.level = brackets.length)
    (hvisible : tok.kind.isLayout = false)
    (hword : tok.kind.isWord = true → brackets = r.brackets ∧ tok.kind = wordKind tok.text ∧
      WholeWord tok.text after)
    (hop : tok.kind = .op → ∀ c ∈ tok.text.head?, isWordStart c = false) :
    Laid first t prev done (tok :: later) := by
  have hlies : Lies first t prev done gap tok after :=
    { text_eq := by rw [hb.text_eq, hread.eq]
      line_eq := by rw [hline, hb.line_eq hrest]
      lineOpen := hb.lineOpen hrest
      joint := hb.joint
      visible := hvisible
      level_eq := fun h => by rw [hlevel, (hword h).1, hb.depth_eq]
      kind_eq := fun h => (hword h).2.1
      whole := fun h => (hword h).2.2
      operator := hop }
  refine .visible hlies (hlater _ _ []
    ⟨?_, hlevel.symm, fun hafter => ?_, ?_, fun _ _ => hstart, ?_⟩)
  · rw [hlies.text_eq]
    simp only [List.append_assoc, List.nil_append]
  · change line = _
    rw [hb.line_eq_of_overLines hread hafter, List.append_nil, List.append_assoc]
  · intro _ hopens
    simp [opensAfter, hvisible] at hopens
  · simp

/-! ### The steps of the reader -/

theorem exists_of_margin {wide narrow continued line : Nat} {u : Text} {m : Reader.Margin}
    (h : Reader.margin wide narrow continued line u = .ok m) :
    ∃ head, OverLines line u head m.rest m.line ∧ KeepsOpen head := by
  have hblank : ∀ {c : Char} {u head rest : Text} {line last : Nat}, isInlineBlank c = true →
      c ≠ '\n' → OverLines line u head rest last ∧ KeepsOpen head →
      OverLines line (c :: u) ([c] ++ head) rest last ∧ KeepsOpen ([c] ++ head) := by
    intro c u head rest line last hc hne ⟨hread, hopen⟩
    exact ⟨(((OnLine.nil u).cons hne).overLines line).append hread,
      (keepsOpen_blanks (by simp [hc])).append hopen⟩
  fun_induction Reader.margin wide narrow continued line u with
  | case1 _ _ _ _ u ih | case2 _ _ _ _ u ih | case3 _ _ _ _ u ih =>
      obtain ⟨head, hhead⟩ := ih h
      exact ⟨_, hblank (by decide) (by decide) hhead⟩
  | case4 => cases h
  | case5 wide narrow continued line u hne ih =>
      obtain ⟨head, hread, hopen⟩ := ih h
      exact ⟨_, (overLines_joined line u).append hread, (keepsOpen_feed _).append hopen⟩
  | case6 => cases h
  | case7 =>
      cases h
      exact ⟨[], (OnLine.nil _).overLines _, keepsOpen_blanks (by simp)⟩

theorem Between.indents (hb : Between first t prev done gap r) (indents : List (Nat × Nat)) :
    Between first t prev done gap { r with indents := indents } :=
  ⟨hb.text_eq, hb.depth_eq, hb.line_eq, hb.lineOpen, hb.inLine, hb.joint⟩

theorem laid_of_indent {wide narrow : Nat} {ts later : List Token} {next : Reader}
    (h : r.indent wide narrow = .tokens ts next) (hlater : LaidFrom first t next later)
    (hbrackets : r.brackets = []) (hb : Between first t prev done gap r)
    (hopen : r.rest ≠ [] → LineOpen (done ++ gap)) : Laid first t prev done (ts ++ later) := by
  unfold Reader.indent at h
  split at h
  · cases h
  · split at h
    · split at h
      · cases h
        exact hlater _ _ _ hb
      · cases h
    · split at h
      · split at h
        · cases h
        · split at h
          · cases h
          · cases h
            exact hlater.replicate rfl rfl hbrackets (hb.indents _) hopen 1
      · dsimp only at h
        split at h
        · cases h
        · split at h
          · cases h
          · split at h
            · cases h
            · cases h
              exact hlater.replicate rfl rfl hbrackets (hb.indents _) hopen _

theorem exists_onLine_skipComment (u : Text) :
    ∃ comment, OnLine u comment (Reader.skipComment u) := by
  unfold Reader.skipComment
  split
  · next u =>
      refine ⟨('#' :: u).takeWhile (· != '\n'), List.takeWhile_append_dropWhile.symm,
        fun hmem => ?_⟩
      simpa using List.mem_takeWhile_imp hmem
  · exact ⟨[], .nil u⟩

/-- A comment goes to the end of its line. -/
theorem feed_of_skipComment {u : Text} :
    Reader.skipComment u = u ∨ ∀ c ∈ (Reader.skipComment u).head?, c = '\n' := by
  unfold Reader.skipComment
  split
  · refine .inr fun c hc => ?_
    simpa using head?_dropWhile_eq_false _ _ c hc
  · exact .inl rfl

/-- A line without tokens is read to its end. -/
theorem exists_of_isBlankLine {u : Text} (h : Reader.isBlankLine u = true) (line : Nat) :
    ∃ head, OverLines line u head ((Reader.skipComment u).drop 1)
        (lineAfter line ((Reader.skipComment u).drop 1)) ∧
      ((Reader.skipComment u).drop 1 ≠ [] → KeepsOpen head) := by
  obtain ⟨comment, hcomment⟩ := exists_onLine_skipComment u
  have hfeed : ∀ c ∈ (Reader.skipComment u).head?, c = '\n' := by
    cases u with
    | nil => cases h
    | cons c u =>
        rcases (by simpa [Reader.isBlankLine] using h : c = '#' ∨ c = '\n') with rfl | rfl
        · intro d hd
          simpa using head?_dropWhile_eq_false _ _ d hd
        · simp [Reader.skipComment]
  cases hskip : Reader.skipComment u with
  | nil =>
      rw [hskip] at hcomment
      exact ⟨comment, hcomment.overLines line, by simp⟩
  | cons d rest =>
      obtain rfl : d = '\n' := hfeed d (by rw [hskip]; rfl)
      rw [hskip] at hcomment
      refine ⟨comment ++ ['\n'], ?_, fun _ => keepsOpen_feed comment⟩
      exact (hcomment.overLines line).append (by simpa using overLines_single line '\n' rest)

theorem laid_of_lineStart {ts later : List Token} {next : Reader} (hstart : r.atLineStart = true)
    (h : r.lineStart = .tokens ts next) (hlater : LaidFrom first t next later)
    (hb : Between first t prev done gap r) : Laid first t prev done (ts ++ later) := by
  -- inside a statement and outside brackets the reader is never at the start of a line
  have hopens : depthAfter prev = 0 → opensAfter prev = true := fun hdepth => by
    refine Bool.of_not_eq_false fun hopens => ?_
    rw [hb.inLine hopens hdepth] at hstart
    cases hstart
  have hjoint : ∀ {p : Prop}, opensAfter prev = false → depthAfter prev = 0 → p := fun ho hd => by
    rw [hopens hd] at ho
    cases ho
  unfold Reader.lineStart at h
  split at h
  · cases h
  · next m hm =>
      obtain ⟨head, hread, hkeeps⟩ := exists_of_margin hm
      have hbm : Between first t prev done (gap ++ head)
          { r with rest := m.rest, line := m.line, atLineStart := false } :=
        hb.skip hread (fun _ => hkeeps) hjoint
      dsimp only at h
      split at h
      · next hblank =>
          cases h
          obtain ⟨line, hline, hkeeps⟩ := exists_of_isBlankLine hblank m.line
          exact hlater _ _ _ (hbm.skip hline hkeeps hjoint)
      · split at h
        · next hbrackets =>
            have hnil : r.brackets = [] := List.isEmpty_iff.1 hbrackets
            have hdepth : depthAfter prev = 0 := by rw [← hb.depth_eq, hnil]; rfl
            exact laid_of_indent h hlater hnil hbm fun hrest => hbm.lineOpen hrest (hopens hdepth)
        · cases h
          exact hlater _ _ _ hbm

theorem not_isWordPart_feed : isWordPart '\n' = false := by decide

theorem isWordPart_of_isWordStart {c : Char} (h : isWordStart c = true) : isWordPart c = true := by
  simp only [isWordStart, isWordPart, Char.isAlphanum, Bool.or_eq_true] at h ⊢
  tauto

theorem onLine_takeWhile {p : Char → Bool} (hfeed : p '\n' = false) (u : Text) :
    OnLine u (u.takeWhile p) (u.dropWhile p) :=
  ⟨List.takeWhile_append_dropWhile.symm, fun hmem => by
    have := List.mem_takeWhile_imp hmem
    rw [hfeed] at this
    cases this⟩

theorem isWord_wordKind (w : Text) : (wordKind w).isWord = true := by
  unfold wordKind
  split_ifs <;> rfl

theorem isLayout_of_isWord {k : TokenKind} (h : k.isWord = true) : k.isLayout = false := by
  cases k <;> simp_all [TokenKind.isWord, TokenKind.isLayout]

theorem laid_of_word {c : Char} {u : Text} {ts later : List Token} {next : Reader}
    (hstart : r.atLineStart = false) (hcons : r.rest = c :: u) (hc : isWordStart c = true)
    (h : r.word = .tokens ts next) (hlater : LaidFrom first t next later)
    (hb : Between first t prev done gap r) : Laid first t prev done (ts ++ later) := by
  have hrest : r.rest ≠ [] := by simp [hcons]
  have hword := onLine_takeWhile not_isWordPart_feed r.rest
  unfold Reader.word at h
  dsimp only at h
  split at h
  · next hstring =>
      split at h
      · cases h
      · next s rest last hs =>
          cases h
          obtain ⟨a, u, hu, ha⟩ : ∃ a u, r.rest.dropWhile isWordPart = a :: u ∧ a ≠ '\n' := by
            cases hdrop : r.rest.dropWhile isWordPart with
            | nil => rw [hdrop] at hstring; simp at hstring
            | cons a u =>
                rw [hdrop] at hstring
                refine ⟨a, u, rfl, ?_⟩
                rintro rfl
                simp at hstring
          rw [hu] at hs hword
          have hread := (hword.overLines r.line).append (overLines_of_stringBody ha hs)
          exact hlater.visible hb hstart hread hrest rfl rfl rfl
            (by simp [Reader.token, TokenKind.isWord]) (by simp [Reader.token])
  · split at h
    · cases h
      refine hlater.visible hb hstart (hword.overLines r.line) hrest rfl rfl
        (isLayout_of_isWord (isWord_wordKind _)) (fun _ => ⟨rfl, rfl, ?_⟩) fun hop => ?_
      · refine ⟨?_, fun d hd => List.mem_takeWhile_imp hd, head?_dropWhile_eq_false _ _⟩
        simp [Reader.token, hcons, isWordPart_of_isWordStart hc]
      · have := isWord_wordKind (r.rest.takeWhile isWordPart)
        rw [show wordKind _ = TokenKind.op from hop] at this
        cases this
    · cases h

theorem onLine_operatorText {c : Char} (hc : c ≠ '\n') (u : Text) :
    OnLine (c :: u) (operatorText (c :: u)) ((c :: u).drop (operatorText (c :: u)).length) := by
  have htake : ∀ k, c :: u = (c :: u).take k ++ (c :: u).drop ((c :: u).take k).length := by
    intro k
    rw [List.length_take]
    rcases Nat.le_total k (c :: u).length with hk | hk
    · rw [Nat.min_eq_left hk, List.take_append_drop]
    · rw [Nat.min_eq_right hk, List.take_of_length_le hk, List.drop_length, List.append_nil]
  unfold operatorText
  split
  · next h3 =>
      refine ⟨htake 3, fun hmem => ?_⟩
      have : ∀ o ∈ operators3, '\n' ∉ o := by decide
      exact this _ (List.contains_iff_mem.1 h3) hmem
  · split
    · next h2 =>
        refine ⟨htake 2, fun hmem => ?_⟩
        have : ∀ o ∈ operators2, '\n' ∉ o := by decide
        exact this _ (List.contains_iff_mem.1 h2) hmem
    · exact ⟨htake 1, by simpa using hc.symm⟩

theorem head?_operatorText (c : Char) (u : Text) : (operatorText (c :: u)).head? = some c := by
  unfold operatorText
  split_ifs <;> simp

theorem laid_of_operator {c : Char} {u : Text} {ts later : List Token} {next : Reader}
    (hstart : r.atLineStart = false) (hrest : r.rest = c :: u) (hc : c ≠ '\n')
    (hword : isWordStart c = false) (h : r.operator c = .tokens ts next)
    (hlater : LaidFrom first t next later) (hb : Between first t prev done gap r) :
    Laid first t prev done (ts ++ later) := by
  have hne : r.rest ≠ [] := by simp [hrest]
  have hread : OverLines r.line r.rest (operatorText r.rest)
      (r.rest.drop (operatorText r.rest).length) r.line := by
    rw [hrest]
    exact (onLine_operatorText hc u).overLines r.line
  have hop : ∀ d ∈ (operatorText r.rest).head?, isWordStart d = false := by
    rw [hrest, head?_operatorText]
    rintro d ⟨⟩
    exact hword
  have hlaid : ∀ {brackets : List (Char × Nat)},
      LaidFrom first t { r with
        rest := r.rest.drop (operatorText r.rest).length, brackets := brackets } later →
      Laid first t prev done (⟨.op, operatorText r.rest, r.line, brackets.length⟩ :: later) :=
    fun hlater => hlater.visible hb hstart hread hne rfl rfl rfl (by simp [TokenKind.isWord])
      fun _ => hop
  unfold Reader.operator at h
  dsimp only at h
  split at h
  · cases h; exact hlaid hlater
  · split at h
    · split at h
      · cases h
      · cases h; exact hlaid hlater
    · split at h
      · split at h
        · cases h
        · split at h
          · cases h; exact hlaid hlater
          · cases h
      · split at h
        · cases h; exact hlaid hlater
        · cases h

/-- Before a token with a text only blanks of its line are skipped, since a comment goes to
the end of the line. -/
theorem exists_of_inLine (u : Text) :
    ∃ skipped, OnLine u skipped (Reader.skipComment (u.dropWhile isInlineBlank)) ∧
      ((∀ c ∈ skipped, isInlineBlank c = true) ∨
        ∀ c ∈ (Reader.skipComment (u.dropWhile isInlineBlank)).head?, c = '\n') := by
  obtain ⟨comment, hcomment⟩ := exists_onLine_skipComment (u.dropWhile isInlineBlank)
  have hblanks := onLine_takeWhile (p := isInlineBlank) (by decide) u
  rcases feed_of_skipComment (u := u.dropWhile isInlineBlank) with hself | hfeed
  · rw [hself]
    exact ⟨_, hblanks, .inl fun c hc => List.mem_takeWhile_imp hc⟩
  · exact ⟨_, hblanks.append hcomment, .inr hfeed⟩

theorem isJoint_of_isInlineBlank {c : Char} (h : isInlineBlank c = true) : isJoint c = true := by
  simp [isJoint, h]

theorem laid_of_feed {skipped rest : Text} {ts later : List Token}
    (hread : OnLine r.rest skipped ('\n' :: rest))
    (hts : ts = if r.brackets.isEmpty then [r.token .newline []] else [])
    (hlater : LaidFrom first t
      { r with rest := rest, line := lineAfter r.line rest, atLineStart := true } later)
    (hb : Between first t prev done gap r) : Laid first t prev done (ts ++ later) := by
  have hfeed : OverLines r.line r.rest (skipped ++ ['\n']) rest (lineAfter r.line rest) :=
    (hread.overLines r.line).append (by simpa using overLines_single r.line '\n' rest)
  have hopen := keepsOpen_feed skipped
  split at hts
  · next hbrackets =>
      subst hts
      have hnil : r.brackets = [] := List.isEmpty_iff.1 hbrackets
      refine .layout rfl (by simp [Reader.token, hnil])
        (hlater _ _ _ (hb.layout hfeed rfl rfl fun _ => ?_))
      rw [← List.append_assoc, ← List.append_assoc]
      exact lineOpen_feed _
  · next hbrackets =>
      subst hts
      refine hlater _ _ _ (hb.skip hfeed (fun _ => hopen) fun _ hdepth => absurd ?_ hbrackets)
      rw [← hb.depth_eq] at hdepth
      rw [List.isEmpty_iff, List.length_eq_zero_iff.1 hdepth]

theorem laid_of_inLine {ts later : List Token} {next : Reader} (hstart : r.atLineStart = false)
    (h : r.inLine = .tokens ts next) (hlater : LaidFrom first t next later)
    (hb : Between first t prev done gap r) : Laid first t prev done (ts ++ later) := by
  obtain ⟨skipped, hread, hskipped⟩ := exists_of_inLine r.rest
  unfold Reader.inLine at h
  dsimp only at h
  generalize Reader.skipComment (r.rest.dropWhile isInlineBlank) = body at h hread hskipped
  cases body with
  | nil => dsimp only at h; split at h <;> cases h
  | cons c more =>
      dsimp only at h
      by_cases hfeed : c = '\n'
      · subst hfeed
        rw [if_neg (by decide), if_pos rfl] at h
        cases h
        exact laid_of_feed hread rfl hlater hb
      · -- no comment was skipped: it would have left only the line feed
        have hblanks : ∀ c ∈ skipped, isInlineBlank c = true :=
          hskipped.resolve_right fun hall => hfeed (hall c rfl)
        have hb' : Between first t prev done (gap ++ skipped)
            { r with rest := c :: more, atLineStart := r.atLineStart } :=
          hb.skip (hread.overLines r.line) (fun _ => keepsOpen_blanks hblanks) fun _ _ =>
            ⟨hstart, fun d hd => isJoint_of_isInlineBlank (hblanks d hd)⟩
        split_ifs at h with hword hnumber hstring hback
        · exact laid_of_word (r := { r with rest := c :: more }) hstart rfl hword h hlater hb'
        · split at h
          · cases h
          · next text rest hread =>
              cases h
              exact LaidFrom.visible (r := { r with rest := c :: more }) hlater hb' hstart
                ((onLine_of_number hread).overLines r.line) (by simp) rfl rfl rfl
                (by simp [Reader.token, TokenKind.isWord]) (by simp [Reader.token])
        · split at h
          · cases h
          · next text rest last hread =>
              cases h
              exact LaidFrom.visible (r := { r with rest := c :: more }) hlater hb' hstart
                (overLines_of_stringBody hfeed hread) (by simp) rfl rfl rfl
                (by simp [Reader.token, TokenKind.isWord]) (by simp [Reader.token])
        · subst hback
          split at h
          · next rest =>
              split at h
              · cases h
              · cases h
                exact hlater _ _ _ (hb'.skip (overLines_joined r.line rest)
                  (fun _ => keepsOpen_feed _) fun _ _ => ⟨hstart, by simp [isJoint]⟩)
          · cases h
        · exact laid_of_operator (r := { r with rest := c :: more }) hstart rfl hfeed
            (by simpa using hword) h hlater hb'

theorem indent_ne_finished (r : Reader) (wide narrow : Nat) (ts : List Token) :
    r.indent wide narrow ≠ .finished ts := by
  unfold Reader.indent
  dsimp only
  repeat' split
  all_goals simp

theorem word_ne_finished (r : Reader) (ts : List Token) : r.word ≠ .finished ts := by
  unfold Reader.word
  dsimp only
  repeat' split
  all_goals simp

theorem operator_ne_finished (r : Reader) (c : Char) (ts : List Token) :
    r.operator c ≠ .finished ts := by
  unfold Reader.operator
  dsimp only
  repeat' split
  all_goals simp

/-- The reader ends outside brackets, with the token that marks the end. -/
theorem eq_of_step_finished {ts : List Token} (h : r.step = .finished ts) :
    r.brackets = [] ∧ ts = [r.token .endMarker []] := by
  unfold Reader.step Reader.lineStart Reader.inLine at h
  dsimp only at h
  split at h
  · split at h
    · cases h
    · split at h
      · cases h
      · split at h
        · exact (indent_ne_finished _ _ _ _ h).elim
        · cases h
  · split at h
    · split at h
      · next hbrackets => cases h; exact ⟨List.isEmpty_iff.1 hbrackets, rfl⟩
      · cases h
    · split_ifs at h
      · exact (word_ne_finished _ _ h).elim
      · split at h <;> cases h
      · split at h <;> cases h
      · split at h
        · split at h <;> cases h
        · cases h
      · exact (operator_ne_finished _ _ _ h).elim

/-- One step of the reader lays its tokens where it stands. -/
theorem laid_of_step {ts later : List Token} {next : Reader} (h : r.step = .tokens ts next)
    (hlater : LaidFrom first t next later) (hb : Between first t prev done gap r) :
    Laid first t prev done (ts ++ later) := by
  unfold Reader.step at h
  split at h
  · next hstart => exact laid_of_lineStart hstart h hlater hb
  · next hstart => exact laid_of_inLine (Bool.eq_false_iff.2 hstart) h hlater hb

theorem tokens_run (fuel : Nat) (r : Reader) (acc : List Token) :
    (Reader.run fuel r acc).tokens = acc.reverse ++ (Reader.run fuel r []).tokens := by
  induction fuel generalizing r acc with
  | zero => simp [Reader.run]
  | succ fuel ih =>
      unfold Reader.run
      cases r.step with
      | tokens ts next =>
          dsimp only
          rw [ih next (ts.reverse ++ acc), ih next (ts.reverse ++ [])]
          simp
      | finished ts => simp
      | faulty f => simp

/-- All tokens that are read lie one after the other in the text. -/
theorem laidFrom_run (fuel : Nat) (r : Reader) :
    LaidFrom first t r (Reader.run fuel r []).tokens := by
  induction fuel generalizing r with
  | zero => exact fun _ _ _ _ => .nil
  | succ fuel ih =>
      intro prev done gap hb
      unfold Reader.run
      cases hstep : r.step with
      | tokens ts next =>
          dsimp only
          rw [tokens_run fuel next (ts.reverse ++ [])]
          simpa using laid_of_step hstep (ih next) hb
      | finished ts =>
          obtain ⟨hnil, rfl⟩ := eq_of_step_finished hstep
          exact .layout rfl (by simp [Reader.token, hnil]) (.nil : Laid first t _ [] [])
      | faulty f => exact .nil

end

/-- The tokens of a text lie one after the other in it. -/
theorem laid_lex (first : Nat) (content : Text) :
    Laid first (readable content) none [] (lex first content).tokens :=
  laidFrom_run _ _ none [] []
    ⟨rfl, rfl, fun _ => rfl, fun _ _ => lineOpen_nil, by simp [opensAfter], by simp⟩

/-! ### Tokens from some place on -/

section

variable {first : Nat} {t done : Text} {prev : Option Token}

theorem Laid.lies {tok : Token} {ts : List Token} (h : Laid first t prev done (tok :: ts))
    (hvisible : tok.kind.isLayout = false) :
    ∃ gap after, Lies first t prev done gap tok after ∧
      Laid first t (some tok) (done ++ gap ++ tok.text) ts := by
  cases h with
  | layout hlayout => rw [hvisible] at hlayout; cases hlayout
  | visible hlies htail => exact ⟨_, _, hlies, htail⟩

theorem Laid.exists_lies {ts : List Token} (h : Laid first t prev done ts) {tok : Token}
    (hmem : tok ∈ ts) (hvisible : tok.kind.isLayout = false) :
    ∃ prev done gap after, Lies first t prev done gap tok after := by
  induction h with
  | nil => cases hmem
  | layout hlayout _ _ ih =>
      rcases List.mem_cons.1 hmem with rfl | hmem
      · rw [hvisible] at hlayout; cases hlayout
      · exact ih hmem
  | visible hlies _ ih =>
      rcases List.mem_cons.1 hmem with rfl | hmem
      · exact ⟨_, _, _, _, hlies⟩
      · exact ih hmem

/-- The tokens from some place on lie behind those before it. -/
theorem Laid.drop {front rest : List Token} (h : Laid first t prev done (front ++ rest))
    (hprev : opensAfter prev = true → depthAfter prev = 0) :
    ∃ done', Laid first t (front.getLast?.or prev) done' rest ∧
      (opensAfter (front.getLast?.or prev) = true → depthAfter (front.getLast?.or prev) = 0) := by
  induction front generalizing prev done with
  | nil => exact ⟨done, h, hprev⟩
  | cons tok front ih =>
      -- the token before the rest is the last of `front`, whatever stood before `front`
      have hlast : (tok :: front).getLast?.or prev = front.getLast?.or (some tok) := by
        rw [List.getLast?_cons]
        cases front.getLast? <;> rfl
      rw [hlast]
      rw [List.cons_append] at h
      cases h with
      | layout hlayout hlevel htail => exact ih htail fun _ => hlevel
      | visible hlies htail =>
          refine ih htail fun hopens => ?_
          rw [opensAfter, Option.map_some, Option.getD_some, hlies.visible] at hopens
          cases hopens

/-- A text that begins with words, one behind the other, with joints between them. -/
inductive BeginsWith : List Text → Text → Prop
  | last {w after : Text} (hw : WholeWord w after) : BeginsWith [w] (w ++ after)
  | cons {w gap rest : Text} {ws : List Text} (hw : WholeWord w (gap ++ rest))
      (hgap : ∀ c ∈ gap, isJoint c = true) (htail : BeginsWith ws rest) :
      BeginsWith (w :: ws) (w ++ (gap ++ rest))

theorem WholeWord.notMem_feed {w after : Text} (h : WholeWord w after) : '\n' ∉ w := fun hmem => by
  have hpart := h.letters _ hmem
  rw [not_isWordPart_feed] at hpart
  cases hpart

theorem BeginsWith.ne_nil {ws : List Text} {t : Text} (h : BeginsWith ws t) : t ≠ [] := by
  cases h with
  | last hw => simp [hw.ne_nil]
  | cons hw => simp [hw.ne_nil]

/-- Words that follow each other outside brackets stand one behind the other in the text. -/
theorem Laid.beginsWith {tok : Token} {ts more : List Token}
    (h : Laid first t prev done (tok :: ts ++ more)) (hdepth : depthAfter prev = 0)
    (hwords : ∀ w ∈ tok :: ts, w.kind.isWord = true) :
    ∃ gap after, Lies first t prev done gap tok after ∧
      BeginsWith ((tok :: ts).map Token.text) (tok.text ++ after) := by
  induction ts generalizing tok prev done with
  | nil =>
      have hword := hwords tok List.mem_cons_self
      obtain ⟨gap, after, hlies, -⟩ := h.lies (isLayout_of_isWord hword)
      exact ⟨gap, after, hlies, .last (hlies.whole hword)⟩
  | cons tok' ts ih =>
      have hword := hwords tok List.mem_cons_self
      obtain ⟨gap, after, hlies, htail⟩ := h.lies (isLayout_of_isWord hword)
      have hdepth' : depthAfter (some tok) = 0 := by rw [← hdepth]; exact hlies.level_eq hword
      obtain ⟨gap', after', hlies', hbegins⟩ :=
        ih htail hdepth' fun w hw => hwords w (List.mem_cons_of_mem _ hw)
      -- both places cut the same text, so what follows the word is the gap of the next one
      have hafter : after = gap' ++ (tok'.text ++ after') := by
        have heq := hlies.text_eq.symm.trans hlies'.text_eq
        simpa only [List.append_assoc, List.append_cancel_left_eq] using heq
      have hjoint := hlies'.joint (by simp [opensAfter, hlies.visible]) hdepth'
      refine ⟨gap, after, hlies, ?_⟩
      have hwhole := hlies.whole hword
      rw [hafter] at hwhole ⊢
      exact .cons hwhole hjoint hbegins

end

end DocPress.Docstring
