import DocPress.Docstring.Parser
import DocPress.Proofs.Docstring.Grammar

/-!
# Functions in the tree of a text

Every function in the tree of a text was read where a statement may begin: its keywords and
its name are the tokens from there on, and its line is that of the first keyword
(`sound_of_parseModule`).  The reading follows the tables of the grammar: `Reads` says so of
each of its parts up to some depth, one lemma per part leads to the next depth, and `reads`
is the induction.
-/

namespace DocPress.Docstring

/-- At this place a statement may begin: at the very beginning, and behind a token that
shapes the lines. -/
def Source.Starts (src : Source) (pos : Nat) : Prop :=
  ∀ p tok, pos = p + 1 → src.tokens[p]? = some tok → tok.kind.isLayout = true

theorem Source.starts_zero (src : Source) : src.Starts 0 := fun _ _ h => by cases h

/-- The keyword of functions. -/
def Token.isDef (t : Token) : Bool :=
  (t.kind = .op || t.kind = .keyword) && t.text == "def".toList

/-- The tokens with which a function begins, the first at a place where a statement may
begin.  The function has the line of its first keyword, and its name is that of the last. -/
inductive FunctionAt (src : Source) (line : Nat) (name : Text) : Prop
  | plain {pos : Nat} {keyword named : Token} (starts : src.Starts pos)
      (keyword_at : src.tokens[pos]? = some keyword) (named_at : src.tokens[pos + 1]? = some named)
      (isDef : keyword.isDef = true) (isName : named.kind = .name) (line_eq : keyword.line = line)
      (name_eq : src.data.name named.text = name)
  | async {pos : Nat} {first keyword named : Token} (starts : src.Starts pos)
      (first_at : src.tokens[pos]? = some first)
      (keyword_at : src.tokens[pos + 1]? = some keyword)
      (named_at : src.tokens[pos + 1 + 1]? = some named) (isAsync : first.kind = .async)
      (isDef : keyword.isDef = true) (isName : named.kind = .name) (line_eq : first.line = line)
      (name_eq : src.data.name named.text = name)

/-- Every function among the lists and classes of a node stands where a statement may begin,
and classes and functions have their three parts. -/
inductive Node.Sound (src : Source) : Node → Prop
  | token (t : Token) : Sound src (.token t)
  | absent : Sound src .absent
  | text (codes : List Nat) : Sound src (.text codes)
  | list {items : List Node} (h : ∀ n ∈ items, Sound src n) : Sound src (.list items)
  | function {line : Nat} {name result block : Node} (h : FunctionAt src line name.word) :
      Sound src (.node .functionDef line [name, result, block])
  | klass {line : Nat} {name arguments block : Node} (h : Sound src block) :
      Sound src (.node .classDef line [name, arguments, block])
  | other {form : Form} {line : Nat} {parts : List Node} (h : form.isDeclaration = false) :
      Sound src (.node form line parts)

variable {src : Source}

theorem Node.Sound.getD {nodes : List Node} (h : ∀ n ∈ nodes, n.Sound src) (i : Nat) :
    (nodes[i]?.getD .absent).Sound src := by
  cases hi : nodes[i]? with
  | none => exact .absent
  | some n => exact h n (List.mem_of_getElem? hi)

theorem Node.Sound.reverse {nodes : List Node} (h : ∀ n ∈ nodes, n.Sound src) :
    (Node.list nodes.reverse).Sound src := .list fun n hn => h n (List.mem_reverse.1 hn)

/-- A node that a chain can put another in front of: neither a class nor a function. -/
def Node.IsStep (n : Node) : Prop :=
  ∀ form line parts, n = .node form line parts → form.isDeclaration = false

/-- A chain of steps is sound when its first node is. -/
theorem Node.Sound.chain {line : Nat} {steps : List Node} {acc : Node} (hacc : acc.Sound src)
    (hsteps : ∀ n ∈ steps, n.IsStep) :
    (steps.foldl (fun acc step => match step with
      | .node form _ parts => .node form line (acc :: parts)
      | _ => acc) acc).Sound src := by
  induction steps generalizing acc with
  | nil => exact hacc
  | cons step steps ih =>
      obtain ⟨hstep, hsteps⟩ := List.forall_mem_cons.1 hsteps
      rw [List.foldl_cons]
      refine ih ?_ hsteps
      cases step with
      | node form _ parts => exact .other (hstep form _ parts rfl)
      | _ => exact hacc

theorem sound_of_joinStrings {fuel seen line : Nat} {tokens : List Node} {n : Node}
    (h : joinStrings src fuel seen line tokens = .ok n) : n.Sound src := by
  cases fuel with
  | zero =>
      rw [joinStrings] at h
      cases h
  | succ fuel =>
      rw [joinStrings] at h
      -- what is read inside the strings may hold no statement, so it does not matter here
      obtain ⟨pieces, -, h⟩ := exists_of_bind_eq_ok h
      dsimp only at h
      repeat' split at h
      all_goals cases h
      all_goals exact .other rfl

/-! ### The reading -/

theorem exists_of_matchToken {pos next : Nat} {st st' : Session} {fits : Token → Bool} {n : Node}
    (h : matchToken src pos st fits = (.found n next, st')) :
    ∃ t, src.tokens[pos]? = some t ∧ fits t = true ∧ next = pos + 1 ∧
      n = if t.kind = .name then .node .name t.line [.token { t with text := src.data.name t.text }]
        else .token t := by
  unfold matchToken at h
  split at h
  · cases h
  · next t ht =>
      dsimp only at h
      split at h
      · next hfits =>
          split at h
          · cases h
          · split at h
            · next hname => cases h; exact ⟨t, ht, hfits, rfl, (if_pos hname).symm⟩
            · next hname => cases h; exact ⟨t, ht, hfits, rfl, (if_neg hname).symm⟩
      · cases h

/-- The answers that are kept are right. -/
def Kept.Right (src : Source) (k : Kept) : Prop :=
  ∀ r pos n next, k.answer? r pos = some (some (n, next)) →
    n.Sound src ∧ (r.givesStart = true → src.Starts next)

theorem Kept.answer?_keep {k : Kept} {r r' : Rule} {pos pos' : Nat} {a x : Option (Node × Nat)}
    (h : (k.keep r pos a).answer? r' pos' = some x) :
    (r' = r ∧ x = a) ∨ k.answer? r' pos' = some x := by
  unfold Kept.answer? Kept.keep at h
  rw [Array.getD_eq_getD_getElem?, Array.getElem?_modify] at h
  by_cases hpos : pos = pos'
  · subst hpos
    rw [if_pos rfl] at h
    cases hk : k[pos]? with
    | none => rw [hk] at h; cases h
    | some answers =>
        rw [hk] at h
        by_cases hr : r' = r
        · subst hr
          simp only [Option.map_some, Option.getD_some, List.lookup_cons_self] at h
          exact .inl ⟨rfl, (Option.some.inj h).symm⟩
        · refine .inr ?_
          have hne : (r' == r) = false := beq_eq_false_iff_ne.2 hr
          simp only [Option.map_some, Option.getD_some, List.lookup_cons, hne] at h
          unfold Kept.answer?
          rw [Array.getD_eq_getD_getElem?, hk]
          exact h
  · rw [if_neg hpos] at h
    refine .inr ?_
    unfold Kept.answer?
    rw [Array.getD_eq_getD_getElem?]
    exact h

theorem Kept.right_empty (src : Source) (places : Nat) : (Kept.empty places).Right src := by
  intro r pos n next h
  unfold Kept.answer? Kept.empty at h
  rw [Array.getD_eq_getD_getElem?, Array.getElem?_replicate] at h
  split at h <;> cases h

theorem Kept.Right.keep {k : Kept} (h : k.Right src) {r : Rule} {pos : Nat}
    {answer : Option (Node × Nat)}
    (hanswer : ∀ n next, answer = some (n, next) →
      n.Sound src ∧ (r.givesStart = true → src.Starts next)) : (k.keep r pos answer).Right src := by
  intro r' pos' n next hget
  rcases Kept.answer?_keep hget with ⟨rfl, hnew⟩ | hold
  · exact hanswer n next hnew.symm
  · exact h r' pos' n next hold

/-- A reading that does not look for mistakes and whose kept answers are right. -/
structure Session.Sound (src : Source) (st : Session) : Prop where
  quiet : st.complaining = false
  kept : st.kept.Right src

/-- The answer is a sound node, and behind it a statement may begin if that is promised. -/
structure Yields (src : Source) (gives : Bool) (out : Result × Session) : Prop where
  found : ∀ n next, out.1 = .found n next → n.Sound src ∧ (gives = true → src.Starts next)
  session : out.2.Sound src

theorem Yields.missed {gives : Bool} {st : Session} (h : st.Sound src) :
    Yields src gives (.missed, st) := ⟨fun _ _ h => (by cases h), h⟩

theorem Yields.stopped {gives settled : Bool} {e : SyntaxError} {st : Session} (h : st.Sound src) :
    Yields src gives (.stopped e settled, st) := ⟨fun _ _ h => (by cases h), h⟩

/-- An answer without a node promises everything. -/
theorem Yields.of_not_found {gives gives' : Bool} {out : Result × Session}
    (h : Yields src gives out) (hne : ∀ n next st, out = (.found n next, st) → False) :
    Yields src gives' out :=
  ⟨fun n next hfound => (hne n next out.2 (Prod.ext hfound rfl)).elim, h.session⟩

theorem Yields.mono {gives gives' : Bool} {out : Result × Session} (h : Yields src gives out)
    (hle : gives' = true → gives = true) : Yields src gives' out :=
  ⟨fun n next hfound => ⟨(h.found n next hfound).1, fun hg => (h.found n next hfound).2 (hle hg)⟩,
    h.session⟩

/-- The same for the items of an alternative. -/
structure YieldsItems (src : Source) (gives : Bool) (out : ItemsResult × Session) : Prop where
  matched : ∀ nodes next, out.1 = .matched nodes next →
    (∀ n ∈ nodes, n.Sound src) ∧ (gives = true → src.Starts next)
  session : out.2.Sound src

/-- All parts of the reading keep to the tables of where statements begin. -/
structure Reads (src : Source) (fuel : Nat) : Prop where
  peg : ∀ {p : Peg} {start gives : Bool} {pos : Nat} {st : Session}, p.leaves start = some gives →
    (start = true → src.Starts pos) → st.Sound src → Yields src gives (runPeg src fuel p pos st)
  rule : ∀ {r : Rule} {pos : Nat} {st : Session}, r.isPlain = true →
    (r.atStart = true → src.Starts pos) → st.Sound src →
    Yields src r.givesStart (runRule src fuel r pos st)
  alts : ∀ {alts : List Alt} {start gives : Bool} {pos : Nat} {st : Session},
    altsLeave alts start = some gives → (start = true → src.Starts pos) → st.Sound src →
    Yields src gives (runAlts src fuel alts pos st)
  items : ∀ {items : List Peg} {start gives committed : Bool} {pos : Nat} {st : Session}
    {acc : List Node}, itemsLeave items start = some gives → (start = true → src.Starts pos) →
    st.Sound src → (∀ n ∈ acc, n.Sound src) →
    YieldsItems src gives (runItems src fuel items pos st acc committed)
  many : ∀ {p : Peg} {start gives : Bool} {pos : Nat} {st : Session} {acc : List Node},
    p.leaves start = some gives → (start = true → gives = true) → (start = true → src.Starts pos) →
    st.Sound src → (∀ n ∈ acc, n.Sound src) → Yields src start (runMany src fuel p pos st acc)
  separated : ∀ {separator : String} {p : Peg} {gives : Bool} {pos : Nat} {st : Session}
    {acc : List Node}, p.leaves false = some gives → st.Sound src → (∀ n ∈ acc, n.Sound src) →
    Yields src false (runSeparated src fuel separator p pos st acc)

theorem reads_zero (src : Source) : Reads src 0 where
  peg _ _ hst := by rw [runPeg]; exact .stopped hst
  rule _ _ hst := by rw [runRule]; exact .stopped hst
  alts _ _ hst := by rw [runAlts]; exact .stopped hst
  items _ _ hst _ := by rw [runItems]; exact ⟨fun _ _ h => (by cases h), hst⟩
  many _ _ _ hst _ := by rw [runMany]; exact .stopped hst
  separated _ hst _ := by rw [runSeparated]; exact .stopped hst

theorem yields_matchToken {pos : Nat} {st : Session} {fits : Token → Bool} {gives : Bool}
    (hst : st.Sound src)
    (hfits : gives = true → ∀ t, fits t = true → t.kind.isLayout = true) :
    Yields src gives (matchToken src pos st fits) := by
  refine ⟨fun n next hfound => ?_, ?_⟩
  · obtain ⟨t, ht, hfit, rfl, rfl⟩ := exists_of_matchToken (Prod.ext hfound rfl)
    refine ⟨?_, fun hgives p tok hp htok => ?_⟩
    · split
      · exact .other rfl
      · exact .token t
    · obtain rfl : pos = p := Nat.succ.inj hp
      rw [ht] at htok
      cases htok
      exact hfits hgives t hfit
  · unfold matchToken
    repeat' split
    all_goals exact ⟨hst.quiet, hst.kept⟩

theorem Yields.found_at {gives : Bool} {n : Node} {next : Nat} {st : Session} (hn : n.Sound src)
    (hstarts : gives = true → src.Starts next) (hst : st.Sound src) :
    Yields src gives (.found n next, st) :=
  ⟨fun _ _ h => by cases h; exact ⟨hn, hstarts⟩, hst⟩

variable {fuel : Nat}

theorem Reads.yields_many (h : Reads src fuel) {p : Peg} {start gives : Bool} {pos : Nat}
    {st : Session} {acc : List Node}
    (hp : repeatedLeaves p.leaves start = some gives)
    (hpos : start = true → src.Starts pos) (hst : st.Sound src) (hacc : ∀ n ∈ acc, n.Sound src) :
    Yields src gives (runMany src fuel p pos st acc) := by
  unfold repeatedLeaves at hp
  split at hp
  · next hstart =>
      cases hp
      obtain ⟨rfl, hp⟩ : start = true ∧ p.leaves true = some true := by simpa using hstart
      exact h.many hp (fun _ => rfl) hpos hst hacc
  · obtain ⟨c, hc, rfl⟩ := Option.map_eq_some_iff.1 hp
    exact h.many hc (fun h => by cases h) (fun h => by cases h) hst hacc

theorem Reads.yields_peg (h : Reads src fuel) {p : Peg} {start gives : Bool} {pos : Nat}
    {st : Session} (hp : p.leaves start = some gives) (hpos : start = true → src.Starts pos)
    (hst : st.Sound src) : Yields src gives (runPeg src (fuel + 1) p pos st) := by
  cases p with
  | tok text | soft text | anySoft =>
      rw [Peg.leaves] at hp
      cases hp
      rw [runPeg]
      exact yields_matchToken hst fun h => by cases h
  | kind k =>
      rw [Peg.leaves] at hp
      cases hp
      rw [runPeg]
      refine yields_matchToken hst fun hlayout t ht => ?_
      rw [of_decide_eq_true ht]
      exact hlayout
  | rule r =>
      rw [Peg.leaves] at hp
      obtain ⟨hplain, hstart, rfl⟩ := Rule.leaves_eq_some hp
      rw [runPeg]
      exact h.rule hplain (fun hat => hpos (hstart hat)) hst
  | quiet r =>
      rw [Peg.leaves] at hp
      obtain ⟨hplain, hstart, rfl⟩ := Rule.leaves_eq_some hp
      have hy : Yields src r.givesStart (runRule src fuel r pos { st with complaining := false }) :=
        h.rule hplain (fun hat => hpos (hstart hat)) ⟨rfl, hst.kept⟩
      rw [runPeg]
      exact ⟨hy.found, hst.quiet, hy.session.kept⟩
  | mistake r =>
      rw [runPeg, hst.quiet]
      exact .missed hst
  | choice alts =>
      rw [Peg.leaves] at hp
      rw [runPeg]
      exact h.alts hp hpos hst
  | opt p =>
      rw [Peg.leaves] at hp
      obtain ⟨c, hc, rfl⟩ := Option.map_eq_some_iff.1 hp
      have hy := h.peg hc hpos hst
      rw [runPeg]
      split
      · next st' hrun =>
          rw [hrun] at hy
          exact .found_at .absent (fun hb => hpos (Bool.and_eq_true_iff.1 hb).1) hy.session
      · exact hy.mono fun hb => (Bool.and_eq_true_iff.1 hb).2
  | many p =>
      rw [Peg.leaves] at hp
      rw [runPeg]
      exact h.yields_many hp hpos hst (by simp)
  | many1 p =>
      rw [Peg.leaves] at hp
      obtain ⟨c, hc, hp⟩ := Option.bind_eq_some_iff.1 hp
      have hy := h.peg hc hpos hst
      rw [runPeg]
      split
      · next n next st' hrun =>
          rw [hrun] at hy
          obtain ⟨hn, hnext⟩ := hy.found n next rfl
          exact h.yields_many hp hnext hy.session (by simpa using hn)
      · next hne => exact hy.of_not_found hne
  | sep separator p =>
      rw [Peg.leaves] at hp
      obtain ⟨c, hc, hp⟩ := Option.bind_eq_some_iff.1 hp
      obtain ⟨d, hd, rfl⟩ := Option.map_eq_some_iff.1 hp
      have hy := h.peg hc hpos hst
      rw [runPeg]
      split
      · next n next st' hrun =>
          rw [hrun] at hy
          exact h.separated hd hy.session (by simpa using (hy.found n next rfl).1)
      · next hne => exact hy.of_not_found hne
  | ahead p =>
      rw [Peg.leaves] at hp
      obtain ⟨c, hc, rfl⟩ := Option.map_eq_some_iff.1 hp
      have hy := h.peg hc hpos hst
      rw [runPeg]
      split
      · next n next st' hrun =>
          rw [hrun] at hy
          exact .found_at (hy.found n next rfl).1 hpos hy.session
      · next hne => exact hy.of_not_found hne
  | deny p =>
      rw [Peg.leaves] at hp
      obtain ⟨c, hc, rfl⟩ := Option.map_eq_some_iff.1 hp
      have hy := h.peg hc hpos hst
      rw [runPeg]
      split
      · next hrun => rw [hrun] at hy; exact .missed hy.session
      · next hrun => rw [hrun] at hy; exact .found_at .absent hpos hy.session
      · next hne _ => exact hy.of_not_found hne
  | must text =>
      rw [Peg.leaves] at hp
      cases hp
      have hy : Yields src false (matchToken src pos st fun t =>
          t.kind = .op && t.text == text.toList) := yields_matchToken hst fun h => by cases h
      rw [runPeg]
      split
      · next hrun => rw [hrun] at hy; exact .stopped hy.session
      · exact hy
  | commit =>
      rw [Peg.leaves] at hp
      cases hp
      rw [runPeg]
      exact .found_at .absent hpos hst

theorem Reads.yields_manyStep (h : Reads src fuel) {p : Peg} {start gives : Bool} {pos : Nat}
    {st : Session} {acc : List Node} (hp : p.leaves start = some gives)
    (hgives : start = true → gives = true) (hpos : start = true → src.Starts pos)
    (hst : st.Sound src) (hacc : ∀ n ∈ acc, n.Sound src) :
    Yields src start (runMany src (fuel + 1) p pos st acc) := by
  have hlist := Node.Sound.reverse hacc
  have hy := h.peg hp hpos hst
  rw [runMany]
  split
  · next n next st' hrun =>
      rw [hrun] at hy
      obtain ⟨hn, hnext⟩ := hy.found n next rfl
      split
      · exact .found_at hlist hpos hy.session
      · exact h.many hp hgives (fun hstart => hnext (hgives hstart)) hy.session
          (List.forall_mem_cons.2 ⟨hn, hacc⟩)
  · next hrun => rw [hrun] at hy; exact .found_at hlist hpos hy.session
  · next hne _ => exact hy.of_not_found hne

theorem Reads.yields_separatedStep (h : Reads src fuel) {separator : String} {p : Peg}
    {gives : Bool} {pos : Nat} {st : Session} {acc : List Node} (hp : p.leaves false = some gives)
    (hst : st.Sound src) (hacc : ∀ n ∈ acc, n.Sound src) :
    Yields src false (runSeparated src (fuel + 1) separator p pos st acc) := by
  have hlist := Node.Sound.reverse hacc
  have hfalse : ∀ {q : Prop}, false = true → q := fun h => by cases h
  have hsep : Yields src false (runPeg src fuel (.tok separator) pos st) :=
    h.peg (rfl : (Peg.tok separator).leaves false = some false) hfalse hst
  rw [runSeparated]
  split
  · next m next st' hrun =>
      rw [hrun] at hsep
      have hy : Yields src gives (runPeg src fuel p next st') := h.peg hp hfalse hsep.session
      split
      · next n next' st'' hrun' =>
          rw [hrun'] at hy
          exact h.separated hp hy.session (List.forall_mem_cons.2 ⟨(hy.found n next' rfl).1, hacc⟩)
      · next hrun' => rw [hrun'] at hy; exact .found_at hlist hfalse hy.session
      · next hne _ => exact hy.of_not_found hne
  · next hrun => rw [hrun] at hsep; exact .found_at hlist hfalse hsep.session
  · next hne _ => exact hsep.of_not_found hne

theorem runItems_nil (pos : Nat) (st : Session) (acc : List Node) (committed : Bool) :
    runItems src (fuel + 1) [] pos st acc committed = (.matched acc.reverse pos, st) := by
  simp [runItems]

theorem runItems_cons (p : Peg) (more : List Peg) (pos : Nat) (st : Session) (acc : List Node)
    (committed : Bool) :
    ∃ committed', runItems src (fuel + 1) (p :: more) pos st acc committed =
      match runPeg src fuel p pos st with
      | (.found n next, st) => runItems src fuel more next st (n :: acc) committed'
      | (.missed, st) => (.failed committed', st)
      | (.stopped e settled, st) => (.halted e settled, st) := by
  rw [runItems.eq_def]
  exact ⟨_, rfl⟩

theorem Reads.yields_items (h : Reads src fuel) {items : List Peg} {start gives committed : Bool}
    {pos : Nat} {st : Session} {acc : List Node} (hitems : itemsLeave items start = some gives)
    (hpos : start = true → src.Starts pos) (hst : st.Sound src) (hacc : ∀ n ∈ acc, n.Sound src) :
    YieldsItems src gives (runItems src (fuel + 1) items pos st acc committed) := by
  cases items with
  | nil =>
      rw [itemsLeave] at hitems
      cases hitems
      rw [runItems_nil]
      refine ⟨fun nodes next hm => ?_, hst⟩
      cases hm
      exact ⟨fun n hn => hacc n (List.mem_reverse.1 hn), hpos⟩
  | cons p more =>
      rw [itemsLeave] at hitems
      obtain ⟨c, hc, hmore⟩ := Option.bind_eq_some_iff.1 hitems
      have hy := h.peg hc hpos hst
      obtain ⟨committed', hrun⟩ := runItems_cons p more pos st acc committed
      rw [hrun]
      split
      · next n next st' hrun =>
          rw [hrun] at hy
          obtain ⟨hn, hnext⟩ := hy.found n next rfl
          exact h.items hmore hnext hy.session (List.forall_mem_cons.2 ⟨hn, hacc⟩)
      · next hrun => rw [hrun] at hy; exact ⟨fun _ _ h => (by cases h), hy.session⟩
      · next hrun => rw [hrun] at hy; exact ⟨fun _ _ h => (by cases h), hy.session⟩

theorem Reads.yields_grammar (h : Reads src fuel) {r : Rule} {pos : Nat} {st : Session}
    (hplain : r.isPlain = true) (hpos : r.atStart = true → src.Starts pos) (hst : st.Sound src) :
    Yields src r.givesStart (runAlts src fuel (grammar r) pos st) := by
  have hsound := isSound_of_isPlain hplain
  unfold Rule.isSound at hsound
  split at hsound
  · next c hc =>
      refine (h.alts hc hpos hst).mono fun hgives => ?_
      simpa [hgives] using hsound
  · cases hsound

theorem Reads.yields_rule (h : Reads src fuel) {r : Rule} {pos : Nat} {st : Session}
    (hplain : r.isPlain = true) (hpos : r.atStart = true → src.Starts pos) (hst : st.Sound src) :
    Yields src r.givesStart (runRule src (fuel + 1) r pos st) := by
  rw [runRule]
  split
  · split
    · exact .stopped hst
    · have hst' : Session.Sound src { st with seen := max st.seen (pos + 1) } :=
        ⟨hst.quiet, hst.kept⟩
      dsimp only
      split
      · -- an answer that was kept was right when it was kept
        next n next hanswer =>
          obtain ⟨hn, hnext⟩ := hst.kept r pos n next hanswer
          exact .found_at hn hnext hst'
      · exact .missed hst'
      · have hy := h.yields_grammar hplain hpos hst'
        split
        · next n next st' hrun =>
            rw [hrun] at hy
            obtain ⟨hn, hnext⟩ := hy.found n next rfl
            refine .found_at hn hnext ⟨hy.session.quiet, hy.session.kept.keep fun _ _ h => ?_⟩
            cases h
            exact ⟨hn, hnext⟩
        · next hrun =>
            rw [hrun] at hy
            exact .missed ⟨hy.session.quiet, hy.session.kept.keep fun _ _ h => by cases h⟩
        · exact hy
  · exact h.yields_grammar hplain hpos hst

/-! ### The beginning of a function -/

theorem exists_of_runItems_cons {p : Peg} {more : List Peg} {pos next : Nat} {st st' : Session}
    {acc nodes : List Node} {committed : Bool}
    (h : runItems src fuel (p :: more) pos st acc committed = (.matched nodes next, st')) :
    ∃ fuel' n mid st₁ committed', runPeg src fuel' p pos st = (.found n mid, st₁) ∧
      runItems src fuel' more mid st₁ (n :: acc) committed' = (.matched nodes next, st') := by
  cases fuel with
  | zero =>
      rw [runItems] at h
      cases h
  | succ fuel =>
      obtain ⟨committed', hrun⟩ := runItems_cons p more pos st acc committed
      rw [hrun] at h
      split at h
      · next n mid st₁ hrun => exact ⟨fuel, n, mid, st₁, _, hrun, h⟩
      · cases h
      · cases h

/-- The nodes that were matched stay in front. -/
theorem prefix_of_runItems {items : List Peg} {pos next : Nat} {st st' : Session}
    {acc nodes : List Node} {committed : Bool}
    (h : runItems src fuel items pos st acc committed = (.matched nodes next, st')) :
    acc.reverse <+: nodes := by
  induction items generalizing fuel pos st acc committed with
  | nil =>
      cases fuel with
      | zero => rw [runItems] at h; cases h
      | succ fuel =>
          rw [runItems_nil] at h
          cases h
          exact List.prefix_rfl
  | cons p more ih =>
      obtain ⟨fuel', n, mid, st₁, committed', -, h⟩ := exists_of_runItems_cons h
      refine (List.prefix_append _ [n]).trans ?_
      simpa using ih h

theorem exists_of_runPeg_tok {text : String} {pos next : Nat} {st st' : Session} {n : Node}
    (h : runPeg src fuel (.tok text) pos st = (.found n next, st')) :
    ∃ t, src.tokens[pos]? = some t ∧ next = pos + 1 ∧
      ((t.kind = .op || t.kind = .keyword) && t.text == text.toList) = true := by
  cases fuel with
  | zero => rw [runPeg] at h; cases h
  | succ fuel =>
      rw [runPeg] at h
      obtain ⟨t, ht, hfits, rfl, -⟩ := exists_of_matchToken h
      exact ⟨t, ht, rfl, hfits⟩

theorem exists_of_runPeg_kind {k : TokenKind} {pos next : Nat} {st st' : Session} {n : Node}
    (h : runPeg src fuel (.kind k) pos st = (.found n next, st')) :
    ∃ t, src.tokens[pos]? = some t ∧ next = pos + 1 ∧ t.kind = k ∧
      n = if t.kind = .name then .node .name t.line [.token { t with text := src.data.name t.text }]
        else .token t := by
  cases fuel with
  | zero => rw [runPeg] at h; cases h
  | succ fuel =>
      rw [runPeg] at h
      obtain ⟨t, ht, hfits, rfl, hn⟩ := exists_of_matchToken h
      exact ⟨t, ht, rfl, of_decide_eq_true hfits, hn⟩

theorem lastLine_eq {pos : Nat} {t : Token} (h : src.tokens[pos]? = some t) :
    src.lastLine (pos + 1) = t.line := by
  simp [Source.lastLine, h]

/-- The items of a function begin with its keywords and its name. -/
theorem sound_of_functionDef {items : List Peg} {parts : List Nat} {start committed : Bool}
    {pos next : Nat} {st st' : Session} {nodes : List Node}
    (hat : Action.isSound start items (.make .functionDef parts) = true)
    (hpos : start = true → src.Starts pos)
    (h : runItems src fuel items pos st [] committed = (.matched nodes next, st')) :
    (Node.node .functionDef (src.lastLine (pos + 1))
      (parts.map fun i => nodes[i]?.getD .absent)).Sound src := by
  simp only [Action.isSound, Bool.and_eq_true, decide_eq_true_eq] at hat
  obtain ⟨⟨hstart, hlength⟩, hitems⟩ := hat
  obtain ⟨a, b, c, rfl⟩ := List.length_eq_three.1 hlength
  refine .function ?_
  split at hitems
  · next first rest =>
      obtain ⟨rfl, ha⟩ : first = "def" ∧ a = 1 := by simpa using hitems
      subst ha
      obtain ⟨_, n, _, _, _, hdef, h⟩ := exists_of_runItems_cons h
      obtain ⟨keyword, hkeyword, rfl, hisDef⟩ := exists_of_runPeg_tok hdef
      obtain ⟨_, m, _, _, _, hname, h⟩ := exists_of_runItems_cons h
      obtain ⟨named, hnamed, rfl, hisName, rfl⟩ := exists_of_runPeg_kind hname
      obtain ⟨others, rfl⟩ := prefix_of_runItems h
      exact .plain (hpos hstart) hkeyword hnamed hisDef hisName (lastLine_eq hkeyword).symm
        (by simp [hisName, Node.word])
  · next second rest =>
      obtain ⟨rfl, ha⟩ : second = "def" ∧ a = 2 := by simpa using hitems
      subst ha
      obtain ⟨_, k, _, _, _, hasync, h⟩ := exists_of_runItems_cons h
      obtain ⟨first, hfirst, rfl, hisAsync, -⟩ := exists_of_runPeg_kind hasync
      obtain ⟨_, n, _, _, _, hdef, h⟩ := exists_of_runItems_cons h
      obtain ⟨keyword, hkeyword, rfl, hisDef⟩ := exists_of_runPeg_tok hdef
      obtain ⟨_, m, _, _, _, hname, h⟩ := exists_of_runItems_cons h
      obtain ⟨named, hnamed, rfl, hisName, rfl⟩ := exists_of_runPeg_kind hname
      obtain ⟨others, rfl⟩ := prefix_of_runItems h
      exact .async (hpos hstart) hfirst hkeyword hnamed hisAsync hisDef hisName
        (lastLine_eq hfirst).symm (by simp [hisName, Node.word])
  · cases hitems

/-! ### The steps of a chain -/

theorem isStep_of_runAlts {alts : List Alt} (halts : alts.all Alt.isStep = true) {pos next : Nat}
    {st st' : Session} {n : Node} (h : runAlts src fuel alts pos st = (.found n next, st')) :
    n.IsStep := by
  induction alts generalizing fuel st with
  | nil =>
      cases fuel with
      | zero => rw [runAlts] at h; cases h
      | succ fuel => simp only [runAlts] at h; cases h
  | cons alt others ih =>
      obtain ⟨halt, hothers⟩ := Bool.and_eq_true_iff.1 (List.all_cons.symm.trans halts)
      obtain ⟨items, action⟩ := alt
      cases fuel with
      | zero => rw [runAlts] at h; cases h
      | succ fuel =>
          cases action with
          | make form parts =>
              rw [runAlts] at h
              split at h
              · cases h
              · cases h
              · exact ih hothers h
              · cases h
                intro form' line parts' heq
                cases heq
                simpa [Alt.isStep] using halt
          | _ => cases halt

theorem isStep_of_runMany {steps : List Alt} (hsteps : steps.all Alt.isStep = true) {pos next : Nat}
    {st st' : Session} {acc : List Node} {n : Node} (hacc : ∀ m ∈ acc, m.IsStep)
    (h : runMany src fuel (.choice steps) pos st acc = (.found n next, st')) :
    ∀ m ∈ n.items, m.IsStep := by
  have hlist : ∀ m ∈ (Node.list acc.reverse).items, m.IsStep :=
    fun m hm => hacc m (List.mem_reverse.1 hm)
  induction fuel generalizing pos st acc with
  | zero => rw [runMany] at h; cases h
  | succ fuel ih =>
      rw [runMany] at h
      split at h
      · next m mid st₁ hrun =>
          split at h
          · cases h; exact hlist
          · have hm : m.IsStep := by
              cases fuel with
              | zero => rw [runPeg] at hrun; cases hrun
              | succ fuel =>
                  rw [runPeg] at hrun
                  exact isStep_of_runAlts hsteps hrun
            have hacc' := List.forall_mem_cons.2 ⟨hm, hacc⟩
            exact ih hacc' h fun k hk => hacc' k (List.mem_reverse.1 hk)
      · cases h; exact hlist
      · next hne _ => exact (hne _ _ _ h).elim

/-- What a chain makes is sound when its first item is. -/
theorem sound_of_chain {items : List Peg} {start committed : Bool} {seen pos next : Nat}
    {st st' : Session} {nodes : List Node} {n : Node}
    (hat : Action.isSound start items .chain = true)
    (hrun : runItems src fuel items pos st [] committed = (.matched nodes next, st'))
    (hnodes : ∀ m ∈ nodes, m.Sound src) (h : act src seen pos next nodes .chain = .node n) :
    n.Sound src := by
  simp only [Action.isSound] at hat
  split at hat
  · next p steps =>
      obtain ⟨_, first, _, _, _, -, hrun⟩ := exists_of_runItems_cons hrun
      obtain ⟨fuel', second, _, _, _, hmany, hrun⟩ := exists_of_runItems_cons hrun
      obtain ⟨others, rfl⟩ := prefix_of_runItems hrun
      have hsteps : ∀ m ∈ second.items, m.IsStep := by
        cases fuel' with
        | zero => rw [runPeg] at hmany; cases hmany
        | succ fuel' =>
            rw [runPeg] at hmany
            exact isStep_of_runMany hat (by simp) hmany
      cases h
      exact .chain (.getD hnodes 0) (by simpa using hsteps)
  · cases hat

/-- What an action makes of what its items matched is sound. -/
theorem sound_of_act {items : List Peg} {action : Action} {start committed : Bool}
    {seen pos next : Nat} {st st' : Session} {nodes : List Node} {n : Node}
    (hat : action.isSound start items = true) (hpos : start = true → src.Starts pos)
    (hrun : runItems src fuel items pos st [] committed = (.matched nodes next, st'))
    (hnodes : ∀ m ∈ nodes, m.Sound src) (h : act src seen pos next nodes action = .node n) :
    n.Sound src := by
  cases action with
  | pick i => cases h; exact .getD hnodes i
  | make form parts =>
      cases h
      by_cases hfunction : form = .functionDef
      · subst hfunction
        exact sound_of_functionDef hat hpos hrun
      · by_cases hclass : form = .classDef
        · subst hclass
          obtain ⟨a, b, c, rfl⟩ := List.length_eq_three.1 (of_decide_eq_true hat)
          exact .klass (.getD hnodes c)
        · exact .other (by simp [Form.isDeclaration, hfunction, hclass])
  | gather parts =>
      cases h
      refine .list fun m hm => ?_
      obtain ⟨i, -, rfl⟩ := List.mem_map.1 hm
      exact .getD hnodes i
  | chain => exact sound_of_chain hat hrun hnodes h
  | numberPart imaginary =>
      simp only [act] at h
      split at h
      · cases h; exact .getD hnodes 0
      · split at h <;> cases h
  | strings | complain | argumentOrder => cases h
  | badTarget | missingComma | legacyCall | bareGenerator =>
      simp only [act] at h
      split at h <;> cases h

theorem Reads.yields_alts (h : Reads src fuel) {alts : List Alt} {start gives : Bool} {pos : Nat}
    {st : Session} (halts : altsLeave alts start = some gives)
    (hpos : start = true → src.Starts pos) (hst : st.Sound src) :
    Yields src gives (runAlts src (fuel + 1) alts pos st) := by
  cases alts with
  | nil =>
      have hrun : runAlts src (fuel + 1) [] pos st = (.missed, st) := by simp [runAlts]
      rw [hrun]
      exact .missed hst
  | cons alt others =>
      obtain ⟨items, action⟩ := alt
      rw [altsLeave] at halts
      obtain ⟨c, hc, halts⟩ := Option.bind_eq_some_iff.1 halts
      obtain ⟨d, hd, halts⟩ := Option.bind_eq_some_iff.1 halts
      split at halts
      · next hat =>
          cases halts
          have hy : YieldsItems src c (runItems src fuel items pos st [] false) :=
            h.items hc hpos hst (by simp)
          rw [runAlts]
          split
          · next hrun => rw [hrun] at hy; exact .stopped hy.session
          · next hrun => rw [hrun] at hy; exact .missed hy.session
          · next hrun =>
              rw [hrun] at hy
              exact (h.alts hd hpos hy.session).mono fun hb => (Bool.and_eq_true_iff.1 hb).2
          · next nodes next st' hrun =>
              rw [hrun] at hy
              obtain ⟨hnodes, hnext⟩ := hy.matched nodes next rfl
              have hstarts : (c && d) = true → src.Starts next :=
                fun hb => hnext (Bool.and_eq_true_iff.1 hb).1
              split
              · split
                · next n hjoin => exact .found_at (sound_of_joinStrings hjoin) hstarts hy.session
                · exact .stopped hy.session
              · split
                · next n hact =>
                    exact .found_at (sound_of_act hat hpos hrun hnodes hact) hstarts hy.session
                · exact .missed hy.session
                · exact .stopped hy.session
      · cases halts

theorem reads (src : Source) (fuel : Nat) : Reads src fuel := by
  induction fuel with
  | zero => exact reads_zero src
  | succ fuel ih =>
      exact ⟨ih.yields_peg, ih.yields_rule, ih.yields_alts, ih.yields_items, ih.yields_manyStep,
        ih.yields_separatedStep⟩

theorem exists_of_readAll {r : Rule} {n : Node} (h : readAll src fuel r = .ok n) :
    ∃ fuel' next st, runRule src fuel' r 0 ⟨0, .empty src.tokens.size, false⟩ =
      (.found n next, st) := by
  cases fuel with
  | zero => rw [readAll] at h; cases h
  | succ fuel =>
      rw [readAll] at h
      dsimp only at h
      split at h
      · next m next st hrun => cases h; exact ⟨fuel, next, st, hrun⟩
      · cases h
      · split at h <;> cases h
      · -- the second reading looks for the mistake and gives no tree
        split at h
        · cases h
        · split at h <;> cases h
        · split at h
          · cases h
          · cases h
          · split at h <;> cases h

/-- The tokens of a text as they are read. -/
def sourceOf (data : CharacterData) (content : Text) : Source :=
  ⟨data, (lex 1 content).tokens.toArray, (lex 1 content).fault, (lex 1 content).openBracket, false⟩

/-- In the tree of a text every function stands where a statement may begin. -/
theorem sound_of_parseModule {data : CharacterData} {content : Text} {tree : Node}
    (h : parseModule data content = .ok tree) : tree.Sound (sourceOf data content) := by
  have hread : readAll (sourceOf data content) _ (.stmt .file) = .ok tree := h
  obtain ⟨fuel, next, st, hrun⟩ := exists_of_readAll hread
  have hst : Session.Sound (sourceOf data content)
      ⟨0, .empty (sourceOf data content).tokens.size, false⟩ :=
    ⟨rfl, Kept.right_empty _ _⟩
  have hy := (reads (sourceOf data content) fuel).rule (r := .stmt .file) rfl
    (fun _ => Source.starts_zero _) hst
  rw [hrun] at hy
  exact (hy.found tree next rfl).1

end DocPress.Docstring
