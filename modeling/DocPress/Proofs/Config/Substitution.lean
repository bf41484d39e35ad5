import DocPress.Config.Environment
import DocPress.Proofs.Text.Words
import Mathlib.Data.List.Forall2

/-!
# References and their values

What becomes of a tree of settings when its references are replaced, said without the
reader of texts.  A reference stands somewhere in a text (`StandsAt`); a text is cut at its
leftmost reference, and then only what follows that reference is cut again (`Cut`).  So a
value that is put in is never read, and a name may hold what begins a reference.

The main statement is that a tree is refused exactly if a variable that it refers to is not
set, with the first such name in the order of the tree, and that otherwise only its texts
change, each into the cut text with the values in place of the names.
-/

namespace DocPress

namespace Value

mutual

/-- The texts of a value, in depth-first order.  Keys are none of them. -/
def texts : Value → List Text
  | text t => [t]
  | list items => itemTexts items
  | map entries => entryTexts entries
  | _ => []

/-- The texts of values in order. -/
def itemTexts : List Value → List Text
  | [] => []
  | v :: more => v.texts ++ itemTexts more

/-- The texts of the values of entries in order. -/
def entryTexts : List (Value × Value) → List Text
  | [] => []
  | (_, v) :: more => v.texts ++ entryTexts more

end

mutual

/-- A value of the same shape with other texts.  Keys stay as they are. -/
def mapTexts (f : Text → Text) : Value → Value
  | text t => text (f t)
  | list items => list (mapItemTexts f items)
  | map entries => map (mapEntryTexts f entries)
  | v => v

/-- Values in order with other texts. -/
def mapItemTexts (f : Text → Text) : List Value → List Value
  | [] => []
  | v :: more => v.mapTexts f :: mapItemTexts f more

/-- Entries in order with other texts in their values. -/
def mapEntryTexts (f : Text → Text) : List (Value × Value) → List (Value × Value)
  | [] => []
  | (k, v) :: more => (k, v.mapTexts f) :: mapEntryTexts f more

end

end Value

namespace Environment

/-! ### References in a text -/

/-- The name of a reference: not empty, and without the brace that ends it. -/
def IsName (name : Text) : Prop := name ≠ [] ∧ '\x7d' ∉ name

/-- A reference as it is written. -/
def written (name : Text) : Text := '$' :: '\x7b' :: (name ++ ['\x7d'])

/-- A reference that stands in a text, with what is before and after it. -/
def StandsAt (t before name after : Text) : Prop :=
  IsName name ∧ t = before ++ (written name ++ after)

/-- A reference such that no other one begins further left. -/
def IsLeftmost (t before name after : Text) : Prop :=
  StandsAt t before name after ∧
    ∀ before' name' after', StandsAt t before' name' after' → before.length ≤ before'.length

/-- A text cut at its references in one pass from the left: what stands before each with
its name, and what follows the last. -/
inductive Cut : Text → List (Text × Text) → Text → Prop
  | last {t : Text} (hnone : ∀ before name after, ¬ StandsAt t before name after) : Cut t [] t
  | next {t before name after rest : Text} {heads : List (Text × Text)}
      (hleft : IsLeftmost t before name after) (hrest : Cut after heads rest) :
      Cut t ((before, name) :: heads) rest

/-- The names that a text refers to, in order. -/
def RefersTo (t : Text) (names : List Text) : Prop :=
  ∃ heads rest, Cut t heads rest ∧ names = heads.map Prod.snd

/-- A cut text put together again with a text for each name. -/
def joined (value : Text → Text) (heads : List (Text × Text)) (rest : Text) : Text :=
  (heads.flatMap fun h => h.1 ++ value h.2) ++ rest

/-- The value of a variable, or no text if it is not set. -/
def valueOrNil (env : Environment) (name : Text) : Text := (env.value? name).getD []

/-- A text in which each reference is replaced by the value of its variable, which is set. -/
def IsFilled (env : Environment) (t filled : Text) : Prop :=
  ∃ heads rest, Cut t heads rest ∧ (∀ h ∈ heads, env.value? h.2 ≠ none) ∧
    filled = joined env.valueOrNil heads rest

/-- The names that the texts of a value refer to, in depth-first order. -/
def ValueRefersTo (v : Value) (names : List Text) : Prop :=
  ∃ lists, List.Forall₂ RefersTo v.texts lists ∧ names = lists.flatten

/-- The first of some names without a value. -/
def IsFirstUnset (env : Environment) (names : List Text) (name : Text) : Prop :=
  env.value? name = none ∧
    ∃ before after, names = before ++ name :: after ∧ ∀ n ∈ before, env.value? n ≠ none

variable {env : Environment} {t before name after rest : Text} {heads : List (Text × Text)}

/-! ### The reference at the head of a text -/

theorem isNameChar_of_mem (h : '\x7d' ∉ name) : ∀ c ∈ name, isNameChar c = true := by
  intro c hc
  simp only [isNameChar, bne_iff_ne]
  rintro rfl
  exact h hc

theorem leading?_written (h : IsName name) (after : Text) :
    leading? (written name ++ after) = some (name, after) := by
  obtain ⟨hne, hbrace⟩ := h
  obtain ⟨htake, hdrop⟩ := Text.takeWhile_run (t := '\x7d' :: after) (isNameChar_of_mem hbrace)
    (by simp [isNameChar])
  have htext : written name ++ after = '$' :: '\x7b' :: (name ++ '\x7d' :: after) := by
    simp [written]
  rw [htext, leading?]
  simp only [hdrop, htake, List.isEmpty_iff, if_neg hne]

theorem standsAt_of_leading? (h : leading? t = some (name, after)) : StandsAt t [] name after := by
  unfold leading? at h
  split at h
  · rename_i body
    split at h
    · cases h
    · rename_i brace more hdrop
      simp only [List.isEmpty_iff, Option.ite_none_left_eq_some, Option.some.injEq,
        Prod.mk.injEq] at h
      obtain ⟨hne, rfl, rfl⟩ := h
      have hbrace : brace = '\x7d' := by
        have hhead := List.head?_dropWhile_not isNameChar body
        rw [hdrop] at hhead
        simpa [isNameChar] using hhead
      refine ⟨⟨hne, fun hmem => ?_⟩, ?_⟩
      · simpa [isNameChar] using List.mem_takeWhile_imp hmem
      · have hbody := List.takeWhile_append_dropWhile (p := isNameChar) (l := body)
        rw [hdrop, hbrace] at hbody
        simp only [written, List.nil_append, List.cons_append, List.append_assoc]
        rw [hbody]
  · cases h

theorem leading?_eq_some_iff :
    leading? t = some (name, after) ↔ StandsAt t [] name after := by
  constructor
  · exact standsAt_of_leading?
  · rintro ⟨hname, rfl⟩
    exact leading?_written hname after

theorem not_standsAt_nil (h : leading? t = none) : ¬ StandsAt t [] name after := fun hstands => by
  rw [leading?_eq_some_iff.2 hstands] at h
  cases h

theorem standsAt_cons {c d : Char} :
    StandsAt (c :: t) (d :: before) name after ↔ c = d ∧ StandsAt t before name after := by
  simp only [StandsAt, List.cons_append, List.cons.injEq]
  exact and_left_comm

/-! ### Cuts -/

theorem StandsAt.isLeftmost (h : StandsAt t [] name after) : IsLeftmost t [] name after :=
  ⟨h, fun _ _ _ _ => Nat.zero_le _⟩

/-- Behind a character that begins no reference the leftmost reference stays the same. -/
theorem IsLeftmost.cons {c : Char} (hc : leading? (c :: t) = none)
    (h : IsLeftmost t before name after) : IsLeftmost (c :: t) (c :: before) name after := by
  refine ⟨standsAt_cons.2 ⟨rfl, h.1⟩, fun before' name' after' h' => ?_⟩
  cases before' with
  | nil => exact absurd h' (not_standsAt_nil hc)
  | cons d before' =>
      have hle := h.2 before' name' after' (standsAt_cons.1 h').2
      simpa using hle

theorem not_standsAt_cons {c : Char} (hc : leading? (c :: t) = none)
    (hnone : ∀ before name after, ¬ StandsAt t before name after) (before name after : Text) :
    ¬ StandsAt (c :: t) before name after := by
  intro h
  cases before with
  | nil => exact not_standsAt_nil hc h
  | cons d before => exact hnone before name after (standsAt_cons.1 h).2

/-- Two leftmost references of a text are the same one: they begin at one place, and each
name ends at the first brace. -/
theorem IsLeftmost.unique {before' name' after' : Text} (h : IsLeftmost t before name after)
    (h' : IsLeftmost t before' name' after') :
    before = before' ∧ name = name' ∧ after = after' := by
  have hlength : before.length = before'.length :=
    Nat.le_antisymm (h.2 _ _ _ h'.1) (h'.2 _ _ _ h.1)
  have htext : before ++ (written name ++ after) = before' ++ (written name' ++ after') :=
    h.1.2.symm.trans h'.1.2
  obtain ⟨hbefore, hrest⟩ := List.append_inj htext hlength
  have hleading := congrArg leading? hrest
  rw [leading?_written h.1.1, leading?_written h'.1.1] at hleading
  cases hleading
  exact ⟨hbefore, rfl, rfl⟩

theorem Cut.unique {heads' : List (Text × Text)} {rest' : Text} (h : Cut t heads rest)
    (h' : Cut t heads' rest') : heads = heads' ∧ rest = rest' := by
  induction h generalizing heads' rest' with
  | last hnone =>
      cases h' with
      | last => exact ⟨rfl, rfl⟩
      | next hleft hrest => exact absurd hleft.1 (hnone _ _ _)
  | next hleft hrest ih =>
      cases h' with
      | last hnone => exact absurd hleft.1 (hnone _ _ _)
      | next hleft' hrest' =>
          obtain ⟨rfl, rfl, rfl⟩ := hleft.unique hleft'
          obtain ⟨rfl, rfl⟩ := ih hrest'
          exact ⟨rfl, rfl⟩

theorem RefersTo.unique {names names' : List Text} (h : RefersTo t names)
    (h' : RefersTo t names') : names = names' := by
  obtain ⟨heads, rest, hcut, rfl⟩ := h
  obtain ⟨heads', rest', hcut', rfl⟩ := h'
  rw [(hcut.unique hcut').1]

/-! ### The pieces of a text -/

/-- The name of a piece that is a reference. -/
def Piece.name? : Piece → Option Text
  | .copied _ => none
  | .reference name => some name

/-- A piece with a text in place of its name. -/
def Piece.filled (value : Text → Text) : Piece → Text
  | .copied c => [c]
  | .reference name => value name

/-- The names that the pieces of a text refer to. -/
def references (t : Text) : List Text := (pieces t).filterMap Piece.name?

/-- The pieces of a text with the values of its references. -/
def fill (env : Environment) (t : Text) : Text :=
  (pieces t).flatMap (Piece.filled env.valueOrNil)

/-- The pieces of a text are those of its cut. -/
theorem exists_cut_pieces (t : Text) :
    ∃ heads rest, Cut t heads rest ∧ references t = heads.map Prod.snd ∧
      ∀ value, (pieces t).flatMap (Piece.filled value) = joined value heads rest := by
  fun_induction pieces t with
  | case1 t name after h hlength ih =>
      obtain ⟨heads, rest, hcut, hnames, hjoined⟩ := ih
      have hleft := (leading?_eq_some_iff.1 h).isLeftmost
      have hpieces : pieces t = .reference name :: pieces after := by
        rw [pieces]
        split
        · next heq => cases h.symm.trans heq; rfl
        · next heq => cases h.symm.trans heq
      refine ⟨([], name) :: heads, rest, .next hleft hcut, ?_, fun value => ?_⟩
      · rw [references, hpieces, List.map_cons, ← hnames]
        rfl
      · rw [List.flatMap_cons, hjoined]
        simp [joined, Piece.filled]
  | case2 h =>
      refine ⟨[], [], .last fun before name after hstands => ?_, ?_, fun value => rfl⟩
      · have hlength := congrArg List.length hstands.2
        simp [written] at hlength
      · rw [references, pieces]
        rfl
  | case3 c t h ih =>
      obtain ⟨heads, rest, hcut, hnames, hjoined⟩ := ih
      have hpieces : pieces (c :: t) = .copied c :: pieces t := by
        rw [pieces]
        split
        · next heq => cases h.symm.trans heq
        · rfl
      have hnames' : references (c :: t) = references t := by
        rw [references, hpieces, List.filterMap_cons_none rfl, references]
      rw [hnames']
      cases hcut with
      | last hnone =>
          refine ⟨[], c :: t, .last (not_standsAt_cons h hnone), hnames, fun value => ?_⟩
          rw [List.flatMap_cons, hjoined]
          rfl
      | @next _ before name after _ heads hleft hrest =>
          refine ⟨(c :: before, name) :: heads, rest, .next (hleft.cons h) hrest, hnames,
            fun value => ?_⟩
          rw [List.flatMap_cons, hjoined]
          simp [joined, Piece.filled]

theorem refersTo_references (t : Text) : RefersTo t (references t) := by
  obtain ⟨heads, rest, hcut, hnames, -⟩ := exists_cut_pieces t
  exact ⟨heads, rest, hcut, hnames⟩

theorem isFilled_fill (h : ∀ name ∈ references t, env.value? name ≠ none) :
    IsFilled env t (env.fill t) := by
  obtain ⟨heads, rest, hcut, hnames, hjoined⟩ := exists_cut_pieces t
  refine ⟨heads, rest, hcut, fun head hhead => h _ ?_, hjoined _⟩
  rw [hnames]
  exact List.mem_map_of_mem hhead

/-- A text without references is its own filling. -/
theorem fill_of_references_eq_nil (h : references t = []) : env.fill t = t := by
  obtain ⟨heads, rest, hcut, hnames, hjoined⟩ := exists_cut_pieces t
  rw [hnames, List.map_eq_nil_iff] at h
  subst h
  cases hcut with
  | last _ => exact hjoined _

/-! ### A text in an environment -/

/-- A result, unless one of the names that it needs has no value. -/
def requiring {α : Type} (env : Environment) (names : List Text) (x : α) : Except UnsetVariable α :=
  match names.find? fun name => (env.value? name).isNone with
  | some name => .error ⟨name⟩
  | none => .ok x

theorem requiring_bind {α β : Type} (names more : List Text) (x : α)
    (f : α → Except UnsetVariable β) (y : β) (h : f x = env.requiring more y) :
    (env.requiring names x >>= f) = env.requiring (names ++ more) y := by
  rw [requiring, requiring, List.find?_append]
  cases names.find? fun name => (env.value? name).isNone with
  | some name => rfl
  | none => exact h

theorem requiring_nil {α : Type} (x : α) : env.requiring [] x = .ok x := rfl

/-- A step that needs no further names. -/
theorem requiring_map {α β : Type} (names : List Text) (x : α) (f : α → β) :
    (env.requiring names x >>= fun x => .ok (f x)) = env.requiring names (f x) := by
  rw [requiring_bind names [] x _ (f x) (requiring_nil _).symm, List.append_nil]

theorem find?_eq_some_iff {names : List Text} :
    (names.find? fun name => (env.value? name).isNone) = some name ↔
      IsFirstUnset env names name := by
  simp [List.find?_eq_some_iff_append, IsFirstUnset, Option.isSome_iff_ne_none]

theorem requiring_eq_error_iff {α : Type} {names : List Text} {x : α} {e : UnsetVariable} :
    env.requiring names x = .error e ↔ IsFirstUnset env names e.name := by
  obtain ⟨name⟩ := e
  rw [← find?_eq_some_iff, requiring]
  split
  · next found hfind => simp [hfind]
  · next hfind => simp [hfind]

theorem requiring_eq_ok_iff {α : Type} {names : List Text} {x y : α} :
    env.requiring names x = .ok y ↔ (∀ name ∈ names, env.value? name ≠ none) ∧ x = y := by
  rw [requiring]
  split
  · next found hfind =>
      have hmem := List.mem_of_find?_eq_some hfind
      constructor
      · intro h
        cases h
      · intro h
        exact absurd (find?_eq_some_iff.1 hfind).1 (h.1 found hmem)
  · next hfind =>
      have hset : ∀ name ∈ names, env.value? name ≠ none := by
        simpa [Option.isSome_iff_ne_none] using hfind
      simp only [Except.ok.injEq, iff_and_self]
      exact fun _ => hset

theorem expandPiece_eq (p : Piece) :
    env.expandPiece p = env.requiring p.name?.toList (p.filled env.valueOrNil) := by
  cases p with
  | copied c => rfl
  | reference name =>
      rw [expandPiece, Piece.filled, valueOrNil, requiring]
      cases h : env.value? name <;> simp [Piece.name?, h]

theorem expand_eq (env : Environment) (t : Text) :
    env.expand t = env.requiring (references t) (env.fill t) := by
  have hpieces : ∀ ps : List Piece, ps.mapM (expandPiece env) =
      env.requiring (ps.filterMap Piece.name?) (ps.map (Piece.filled env.valueOrNil)) := by
    intro ps
    induction ps with
    | nil => rfl
    | cons p ps ih =>
        have hnames : (p :: ps).filterMap Piece.name? =
            p.name?.toList ++ ps.filterMap Piece.name? := by
          cases p <;> rfl
        rw [List.mapM_cons, ih, expandPiece_eq, hnames, List.map_cons]
        exact requiring_bind _ _ _ _ _ (requiring_map _ _ _)
  rw [expand, hpieces, requiring_map, references, fill, List.flatMap]

/-! ### A value in an environment -/

mutual

theorem substitute_eq (env : Environment) : ∀ v : Value,
    env.substitute v = env.requiring (v.texts.flatMap references) (v.mapTexts env.fill)
  | .text t => by
      rw [substitute, expand_eq, requiring_map]
      simp [Value.texts, Value.mapTexts]
  | .list items => by
      rw [substitute, substituteItems_eq env items, requiring_map, Value.texts, Value.mapTexts]
  | .map entries => by
      rw [substitute, substituteEntries_eq env entries, requiring_map, Value.texts,
        Value.mapTexts]
  | .null => rfl
  | .bool _ => rfl
  | .int _ => rfl
  | .float _ => rfl
  | .bytes _ => rfl
  | .date _ => rfl
  | .moment _ _ => rfl
  | .tuple _ => rfl
  | .set _ => rfl

theorem substituteItems_eq (env : Environment) : ∀ items : List Value,
    env.substituteItems items =
      env.requiring ((Value.itemTexts items).flatMap references) (Value.mapItemTexts env.fill items)
  | [] => rfl
  | v :: more => by
      rw [substituteItems, substitute_eq env v, substituteItems_eq env more, Value.itemTexts,
        List.flatMap_append]
      exact requiring_bind _ _ _ _ _ (requiring_map _ _ _)

theorem substituteEntries_eq (env : Environment) : ∀ entries : List (Value × Value),
    env.substituteEntries entries =
      env.requiring ((Value.entryTexts entries).flatMap references)
        (Value.mapEntryTexts env.fill entries)
  | [] => rfl
  | (k, v) :: more => by
      rw [substituteEntries, substitute_eq env v, substituteEntries_eq env more, Value.entryTexts,
        List.flatMap_append]
      exact requiring_bind _ _ _ _ _ (requiring_map _ _ _)

end

mutual

theorem mapTexts_eq_self {f : Text → Text} : ∀ v : Value, (∀ t ∈ v.texts, f t = t) →
    v.mapTexts f = v
  | .text t, h => by rw [Value.mapTexts, h t (by simp [Value.texts])]
  | .list items, h => by
      rw [Value.mapTexts, mapItemTexts_eq_self items (by simpa [Value.texts] using h)]
  | .map entries, h => by
      rw [Value.mapTexts, mapEntryTexts_eq_self entries (by simpa [Value.texts] using h)]
  | .null, _ => rfl
  | .bool _, _ => rfl
  | .int _, _ => rfl
  | .float _, _ => rfl
  | .bytes _, _ => rfl
  | .date _, _ => rfl
  | .moment _ _, _ => rfl
  | .tuple _, _ => rfl
  | .set _, _ => rfl

theorem mapItemTexts_eq_self {f : Text → Text} : ∀ items : List Value,
    (∀ t ∈ Value.itemTexts items, f t = t) → Value.mapItemTexts f items = items
  | [], _ => rfl
  | v :: more, h => by
      simp only [Value.itemTexts, List.mem_append] at h
      rw [Value.mapItemTexts, mapTexts_eq_self v fun t ht => h t (.inl ht),
        mapItemTexts_eq_self more fun t ht => h t (.inr ht)]

theorem mapEntryTexts_eq_self {f : Text → Text} : ∀ entries : List (Value × Value),
    (∀ t ∈ Value.entryTexts entries, f t = t) → Value.mapEntryTexts f entries = entries
  | [], _ => rfl
  | (k, v) :: more, h => by
      simp only [Value.entryTexts, List.mem_append] at h
      rw [Value.mapEntryTexts, mapTexts_eq_self v fun t ht => h t (.inl ht),
        mapEntryTexts_eq_self more fun t ht => h t (.inr ht)]

end

theorem valueRefersTo_iff {v : Value} {names : List Text} :
    ValueRefersTo v names ↔ names = v.texts.flatMap references := by
  have hlists : ∀ {ts : List Text} {lists : List (List Text)},
      List.Forall₂ RefersTo ts lists ↔ lists = ts.map references := by
    intro ts lists
    constructor
    · intro h
      induction h with
      | nil => rfl
      | cons hhead _ ih => rw [ih, List.map_cons, hhead.unique (refersTo_references _)]
    · rintro rfl
      exact List.forall₂_map_right_iff.2 (List.forall₂_same.2 fun t _ => refersTo_references t)
  constructor
  · rintro ⟨lists, h, rfl⟩
    rw [hlists.1 h, List.flatMap]
  · rintro rfl
    exact ⟨_, hlists.2 rfl, List.flatMap_def⟩

/-- A tree is refused exactly if a variable that it refers to is not set, and the error
names the first of them.  Otherwise nothing but its texts changes, and each of them has the
values in place of its references.  A tree without references stays as it is. -/
theorem substitute_references (env : Environment) (v : Value) :
    ∃ names, (∀ others, ValueRefersTo v others ↔ others = names) ∧
      ((∃ e, env.substitute v = .error e) ↔ ∃ name ∈ names, env.value? name = none) ∧
      (∀ e, env.substitute v = .error e ↔ IsFirstUnset env names e.name) ∧
      (∀ e : UnsetVariable, e.message = "Environment variable not set: ".toList ++ e.name) ∧
      (∀ w, env.substitute v = .ok w →
        ∃ f, w = v.mapTexts f ∧ ∀ t ∈ v.texts, IsFilled env t (f t)) ∧
      (names = [] → env.substitute v = .ok v) := by
  refine ⟨v.texts.flatMap references, fun others => valueRefersTo_iff, ?_, fun e => ?_,
    fun e => rfl, fun w h => ?_, fun h => ?_⟩
  · rw [substitute_eq]
    constructor
    · rintro ⟨e, h⟩
      obtain ⟨hunset, before, after, heq, -⟩ := requiring_eq_error_iff.1 h
      exact ⟨e.name, by simp [heq], hunset⟩
    · rintro ⟨name, hname, hunset⟩
      cases hresult : env.requiring (v.texts.flatMap references) (v.mapTexts env.fill) with
      | error e => exact ⟨e, rfl⟩
      | ok w => exact absurd hunset ((requiring_eq_ok_iff.1 hresult).1 name hname)
  · rw [substitute_eq, requiring_eq_error_iff]
  · rw [substitute_eq, requiring_eq_ok_iff] at h
    obtain ⟨hset, rfl⟩ := h
    refine ⟨env.fill, rfl, fun t ht => isFilled_fill fun name hname => hset name ?_⟩
    exact List.mem_flatMap.2 ⟨t, ht, hname⟩
  · have hfill : ∀ t ∈ v.texts, env.fill t = t := fun t ht =>
      fill_of_references_eq_nil (List.flatMap_eq_nil_iff.1 h t ht)
    rw [substitute_eq, h, requiring_nil, mapTexts_eq_self v hfill]

-- a name ends at the first brace, so it may hold what begins a reference
example :
    expand [("a$\x7bB".toList, "$\x7bB\x7d".toList)] "$$\x7ba$\x7bB\x7d$\x7b\x7d".toList =
      .ok "$$\x7bB\x7d$\x7b\x7d".toList := by
  cbv

end Environment
end DocPress
