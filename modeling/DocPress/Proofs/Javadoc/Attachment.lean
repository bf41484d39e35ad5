import DocPress.Proofs.Javadoc.Step
import Mathlib.Data.List.Induction

/-!
# Which block documents a declaration

A scan carries a finished block from line to line until a declaration takes it.
`Reaches` says what this comes to in terms of the lines alone: the block was closed
on an earlier line, and all lines in between are comments without documentation.
`Traced` ties the waiting block and the lines of an unfinished one to the lines
already consumed, every line preserves it (`Traced.step`), and
`documentation_attachment` reads off what every declaration of a text carries.
-/

namespace DocPress.Javadoc

open Text

/-! ### Scans line by line -/

/-- The lines that a scan consumes. -/
def trimmedLines (content : Text) : List Text := (lines content).map trim

/-- The line of the given number, the first being line zero. -/
def lineAt (ls : List Text) (n : Nat) : Text := (ls[n]?).getD []

/-- The scan before the line of the given number. -/
def progressAt (ls : List Text) (n : Nat) : Progress := (ls.take n).foldl step Progress.start

/-- A line is met in code. -/
def MetInCode (ls : List Text) (n : Nat) : Prop := (progressAt ls n).place = .code

/-- A line is consumed as a comment that is not a documentation block. -/
def PlainCommentAt (ls : List Text) (n : Nat) : Prop :=
  (progressAt ls n).place = .code ∧ IsPlainComment (lineAt ls n) ∨
    (progressAt ls n).place = .plainComment

theorem progressAt_succ {ls : List Text} {n : Nat} (h : n < ls.length) :
    progressAt ls (n + 1) = step (progressAt ls n) (lineAt ls n) := by
  rw [progressAt, List.take_succ_eq_append_getElem h, List.foldl_append, lineAt,
    List.getElem?_eq_getElem h]
  rfl

theorem classesOf_eq (content : Text) :
    classesOf content =
      (progressAt (trimmedLines content) (trimmedLines content).length).classes := by
  rw [classesOf, progressAt, List.take_length, trimmedLines, List.foldl_map]

/-! ### Blocks as they stand in the text -/

/-- The part of a line that belongs to the block opened on line `o`. -/
def partAt (ls : List Text) (o n : Nat) : Text :=
  if n = o then (lineAt ls n).drop 3 else lineAt ls n

/-- A line of the block opened on line `o` as the block holds it: without the
closing mark, and after the opening line without one leading star. -/
def ownLine (ls : List Text) (o n : Nat) : Text :=
  if n = o then trim (unclosed (partAt ls o n)) else Comment.stripStar (unclosed (partAt ls o n))

/-- The lines from `o` up to but without `n` as the block opened on line `o` holds
them. -/
def ownLines (ls : List Text) (o n : Nat) : List Text :=
  (List.range' o (n - o)).map (ownLine ls o)

/-- A block is opened on line `o` and not closed before line `n`. -/
structure OpenFrom (ls : List Text) (o n : Nat) : Prop where
  le : o ≤ n
  met : MetInCode ls o
  opens : OpensBlock (lineAt ls o)
  unclosed : ∀ k, o ≤ k → k < n → ¬ Closes (partAt ls o k)

/-- A block is closed on line `i`. -/
def ClosedOn (ls : List Text) (i : Nat) (b : Block) : Prop :=
  ∃ o, OpenFrom ls o i ∧ Closes (partAt ls o i) ∧ b.rawText = join ['\n'] (ownLines ls o (i + 1))

/-- A block closed on line `i` still waits before line `n`. -/
structure Reaches (ls : List Text) (i n : Nat) (b : Block) : Prop where
  lt : i < n
  closed : ClosedOn ls i b
  between : ∀ k, i < k → k < n → PlainCommentAt ls k

theorem ownLines_succ {ls : List Text} {o n : Nat} (h : o ≤ n) :
    ownLines ls o (n + 1) = ownLines ls o n ++ [ownLine ls o n] := by
  rw [ownLines, Nat.succ_sub h, List.range'_concat, List.map_append, ownLines, Nat.one_mul,
    Nat.add_sub_cancel' h]
  rfl

theorem ownLines_self (ls : List Text) (o : Nat) : ownLines ls o o = [] := by
  rw [ownLines, Nat.sub_self]
  rfl

theorem partAt_self (ls : List Text) (o : Nat) : partAt ls o o = (lineAt ls o).drop 3 := if_pos rfl

theorem partAt_of_lt {ls : List Text} {o n : Nat} (h : o < n) : partAt ls o n = lineAt ls n :=
  if_neg (Nat.ne_of_gt h)

theorem ownLine_self (ls : List Text) (o : Nat) :
    ownLine ls o o = trim (unclosed ((lineAt ls o).drop 3)) := by
  rw [ownLine, if_pos rfl, partAt_self]

theorem ownLine_of_lt {ls : List Text} {o n : Nat} (h : o < n) :
    ownLine ls o n = Comment.stripStar (unclosed (lineAt ls n)) := by
  rw [ownLine, if_neg (Nat.ne_of_gt h), partAt_of_lt h]

theorem openFrom_self {ls : List Text} {n : Nat} (hmet : MetInCode ls n)
    (hopens : OpensBlock (lineAt ls n)) : OpenFrom ls n n :=
  ⟨Nat.le_refl n, hmet, hopens, fun _ hk hlt => absurd hlt (Nat.not_lt.2 hk)⟩

theorem OpenFrom.of_succ {ls : List Text} {o n : Nat} (h : OpenFrom ls o (n + 1)) (hle : o ≤ n) :
    OpenFrom ls o n :=
  ⟨hle, h.met, h.opens, fun k hk hlt => h.unclosed k hk (Nat.lt_succ_of_lt hlt)⟩

theorem OpenFrom.succ {ls : List Text} {o n : Nat} (h : OpenFrom ls o n)
    (hclosed : ¬ Closes (partAt ls o n)) : OpenFrom ls o (n + 1) := by
  refine ⟨Nat.le_succ_of_le h.le, h.met, h.opens, fun k hk hlt => ?_⟩
  rcases Nat.lt_succ_iff_lt_or_eq.1 hlt with hlt | rfl
  · exact h.unclosed k hk hlt
  · exact hclosed

/-! ### From the text to the scan -/

/-- A scan collects the lines of a block until it is closed. -/
theorem place_of_openFrom {ls : List Text} {o n : Nat} (h : OpenFrom ls o n) (hlt : o < n)
    (hn : n ≤ ls.length) : (progressAt ls n).place = .docBlock (ownLines ls o n) := by
  -- on the lines since the opening one
  induction n with
  | zero => exact absurd hlt (Nat.not_lt_zero o)
  | succ n ih =>
      have hle : o ≤ n := Nat.le_of_lt_succ hlt
      have hclosed := h.unclosed n hle (Nat.lt_succ_self n)
      rw [progressAt_succ hn, ownLines_succ hle]
      rcases Nat.lt_or_eq_of_le hle with hlt | rfl
      · rw [partAt_of_lt hlt] at hclosed
        rw [step_blockLine (ih (h.of_succ hle) hlt (Nat.le_of_succ_le hn)) hclosed,
          ownLine_of_lt hlt, unclosed_eq_self hclosed]
      · rw [partAt_self] at hclosed
        rw [step_blockStart h.met h.opens hclosed, ownLines_self, ownLine_self,
          unclosed_eq_self hclosed]
        rfl

/-- A block waits as soon as it is closed. -/
theorem progressAt_of_closedOn {ls : List Text} {i : Nat} {b : Block} (h : ClosedOn ls i b)
    (hi : i < ls.length) :
    (progressAt ls (i + 1)).place = .code ∧ (progressAt ls (i + 1)).pending = some b := by
  obtain ⟨o, hopen, hclosed, hraw⟩ := h
  have hb : b = blockOf (ownLines ls o i ++ [ownLine ls o i]) := by
    rw [← ownLines_succ hopen.le, blockOf, ← hraw]
  rw [progressAt_succ hi, hb]
  rcases Nat.lt_or_eq_of_le hopen.le with hlt | rfl
  · rw [partAt_of_lt hlt] at hclosed
    rw [step_blockEnd (place_of_openFrom hopen hlt (Nat.le_of_lt hi)) hclosed, ownLine_of_lt hlt]
    exact ⟨rfl, rfl⟩
  · rw [partAt_self] at hclosed
    rw [step_blockWhole hopen.met hopen.opens hclosed, ownLines_self, ownLine_self]
    exact ⟨hopen.met, rfl⟩

/-- Comments without documentation leave the waiting block alone. -/
theorem pending_of_plainCommentAt {ls : List Text} {n : Nat} (h : PlainCommentAt ls n)
    (hn : n < ls.length) : (progressAt ls (n + 1)).pending = (progressAt ls n).pending := by
  obtain ⟨next, -, heq⟩ := step_comment h
  rw [progressAt_succ hn, heq]

theorem pending_of_reaches {ls : List Text} {i n : Nat} {b : Block} (h : Reaches ls i n b)
    (hn : n ≤ ls.length) : (progressAt ls n).pending = some b := by
  obtain ⟨hlt, hclosed, hbetween⟩ := h
  induction n with
  | zero => exact absurd hlt (Nat.not_lt_zero i)
  | succ n ih =>
      rcases Nat.lt_or_eq_of_le (Nat.le_of_lt_succ hlt) with hlt | rfl
      · rw [pending_of_plainCommentAt (hbetween n hlt (Nat.lt_succ_self n)) hn]
        exact ih (Nat.le_of_succ_le hn) hlt fun k hk hkn => hbetween k hk (Nat.lt_succ_of_lt hkn)
      · exact (progressAt_of_closedOn hclosed hn).2

/-! ### From the scan to the text -/

/-- A scan is tied to the lines before line `n`: what it has collected are the
lines of an open block, and outside of a block the waiting one was closed and has
reached line `n`. -/
structure Traced (ls : List Text) (n : Nat) (p : Progress) : Prop where
  collected : ∀ own, p.place = .docBlock own →
    ∃ o, o < n ∧ OpenFrom ls o n ∧ own = ownLines ls o n
  waiting : ∀ b, (∀ own, p.place ≠ .docBlock own) → p.pending = some b → ∃ i, Reaches ls i n b

theorem reaches_succ {ls : List Text} {o n : Nat} {b : Block} (hopen : OpenFrom ls o n)
    (hclosed : Closes (partAt ls o n)) (hb : b = blockOf (ownLines ls o (n + 1))) :
    Reaches ls n (n + 1) b := by
  refine ⟨Nat.lt_succ_self n, ⟨o, hopen, hclosed, hb ▸ rfl⟩, fun k hk hlt => ?_⟩
  exact absurd hlt (Nat.not_lt.2 hk)

theorem Reaches.succ {ls : List Text} {i n : Nat} {b : Block} (h : Reaches ls i n b)
    (hplain : PlainCommentAt ls n) : Reaches ls i (n + 1) b := by
  refine ⟨Nat.lt_succ_of_lt h.lt, h.closed, fun k hk hlt => ?_⟩
  rcases Nat.lt_succ_iff_lt_or_eq.1 hlt with hlt | rfl
  · exact h.between k hk hlt
  · exact hplain

/-- Every line keeps a scan tied to the lines before it. -/
theorem Traced.step {ls : List Text} {n : Nat} {q : Progress} (h : Traced ls n (progressAt ls n))
    (hstep : Consumed (progressAt ls n) (lineAt ls n) q) : Traced ls (n + 1) q := by
  cases hstep with
  | blockLine place closed =>
      obtain ⟨o, hlt, hopen, rfl⟩ := h.collected _ place
      have hpart : ¬ Closes (partAt ls o n) := by rwa [partAt_of_lt hlt]
      -- nothing is asked of the waiting block here: the end of this one replaces it
      refine ⟨fun own hown => ?_, fun b hplace => absurd rfl (hplace _)⟩
      refine ⟨o, Nat.lt_succ_of_lt hlt, hopen.succ hpart, ?_⟩
      rw [← Place.docBlock.inj hown, ownLines_succ hopen.le, ownLine_of_lt hlt,
        unclosed_eq_self closed]
  | blockEnd place closed =>
      obtain ⟨o, hlt, hopen, rfl⟩ := h.collected _ place
      have hpart : Closes (partAt ls o n) := by rwa [partAt_of_lt hlt]
      refine ⟨fun own hown => (nomatch hown), fun b _ hb => ⟨n, reaches_succ hopen hpart ?_⟩⟩
      rw [← Option.some.inj hb, ownLines_succ hopen.le, ownLine_of_lt hlt]
  | blockStart place opens closed =>
      have hpart : ¬ Closes (partAt ls n n) := by rwa [partAt_self]
      have hopen : OpenFrom ls n n := openFrom_self place opens
      refine ⟨fun own hown => ?_, fun b hplace => absurd rfl (hplace _)⟩
      refine ⟨n, Nat.lt_succ_self n, hopen.succ hpart, ?_⟩
      rw [← Place.docBlock.inj hown, ownLines_succ (Nat.le_refl n), ownLines_self, ownLine_self,
        unclosed_eq_self closed]
      rfl
  | blockWhole place opens closed =>
      have hpart : Closes (partAt ls n n) := by rwa [partAt_self]
      have hopen : OpenFrom ls n n := openFrom_self place opens
      refine ⟨fun own hown => ?_, fun b _ hb => ⟨n, reaches_succ hopen hpart ?_⟩⟩
      · rw [place] at hown
        cases hown
      · rw [← Option.some.inj hb, ownLines_succ (Nat.le_refl n), ownLines_self, ownLine_self]
        rfl
  | comment place hnext =>
      have hplain : PlainCommentAt ls n := place
      have houtside : ∀ own, (progressAt ls n).place ≠ .docBlock own := by
        intro own hown
        rw [hown] at place
        rcases place with ⟨hcode, -⟩ | hcomment
        · cases hcode
        · cases hcomment
      refine ⟨fun own hown => ?_, fun b _ hb => ?_⟩
      · rcases hnext with rfl | rfl <;> cases hown
      · obtain ⟨i, hi⟩ := h.waiting b houtside hb
        exact ⟨i, hi.succ hplain⟩
  | separator place hblock hcomment hseparator =>
      refine ⟨fun own hown => ?_, fun b _ hb => nomatch hb⟩
      rw [place] at hown
      cases hown
  | unrecognised place code hnone =>
      refine ⟨fun own hown => ?_, fun b _ hb => nomatch hb⟩
      rw [place] at hown
      cases hown
  | declaration place code hsome =>
      refine ⟨fun own hown => ?_, fun b _ hb => nomatch hb⟩
      rw [place] at hown
      cases hown

theorem traced_start (ls : List Text) : Traced ls 0 Progress.start :=
  ⟨fun _ hown => (nomatch hown), fun _ _ hb => nomatch hb⟩

theorem traced_progressAt {ls : List Text} {n : Nat} (hn : n ≤ ls.length) :
    Traced ls n (progressAt ls n) := by
  induction n with
  | zero => exact traced_start ls
  | succ n ih =>
      rw [progressAt_succ hn]
      exact (ih (Nat.le_of_succ_le hn)).step (step_consumed _ _)

/-- What waits when a line is met in code is the block that has reached the line. -/
theorem pending_iff_reaches {ls : List Text} {n : Nat} (hn : n ≤ ls.length)
    (hmet : MetInCode ls n) (b : Block) :
    (progressAt ls n).pending = some b ↔ ∃ i, Reaches ls i n b := by
  constructor
  · intro h
    refine (traced_progressAt hn).waiting b (fun own hown => ?_) h
    rw [hmet] at hown
    cases hown
  · rintro ⟨i, hi⟩
    exact pending_of_reaches hi hn

/-! ### Declarations with their documentation -/

/-- A declaration with the number and the text of its line. -/
structure Finding where
  line : Nat
  text : Text
  declaration : Declaration
  doc : Option Block
deriving DecidableEq

/-- The types and members that some declarations make up. -/
def assemble (found : List Finding) : List TypeDecl :=
  found.foldl (fun classes f => record classes f.text f.doc f.declaration) []

/-- What a scan finds on the line of the given number. -/
def finding? (ls : List Text) (n : Nat) : Option Finding :=
  (found? (progressAt ls n) (lineAt ls n)).map fun d =>
    ⟨n, lineAt ls n, d, (progressAt ls n).pending⟩

/-- What a scan finds on the first lines of a text. -/
def findingsBefore (ls : List Text) (n : Nat) : List Finding :=
  (List.range n).filterMap (finding? ls)

/-- All declarations of a text in source order. -/
def findings (content : Text) : List Finding :=
  findingsBefore (trimmedLines content) (trimmedLines content).length

theorem finding?_eq_some {ls : List Text} {n : Nat} {f : Finding} (h : finding? ls n = some f) :
    f.line = n ∧ f.text = lineAt ls n ∧ MetInCode ls n ∧ IsCode f.text ∧
      declared? (progressAt ls n).classes f.text = some f.declaration ∧
      f.doc = (progressAt ls n).pending := by
  obtain ⟨d, hd, rfl⟩ := Option.map_eq_some_iff.1 h
  obtain ⟨hmet, hcode, hsome⟩ := found?_eq_some_iff.1 hd
  exact ⟨rfl, rfl, hmet, hcode, hsome, rfl⟩

theorem mem_findingsBefore {ls : List Text} {n : Nat} {f : Finding} (h : f ∈ findingsBefore ls n) :
    f.line < n ∧ finding? ls f.line = some f := by
  obtain ⟨k, hk, hfound⟩ := List.mem_filterMap.1 h
  rw [(finding?_eq_some hfound).1]
  exact ⟨List.mem_range.1 hk, hfound⟩

theorem findingsBefore_pairwise (ls : List Text) (n : Nat) :
    (findingsBefore ls n).Pairwise fun f g => f.line < g.line := by
  refine List.Pairwise.filterMap (finding? ls) ?_ List.pairwise_lt_range
  intro i j hij f hf g hg
  rw [(finding?_eq_some hf).1, (finding?_eq_some hg).1]
  exact hij

/-- The types of a scan are made up of the declarations on the lines before. -/
theorem classes_progressAt {ls : List Text} {n : Nat} (hn : n ≤ ls.length) :
    (progressAt ls n).classes = assemble (findingsBefore ls n) := by
  induction n with
  | zero => rfl
  | succ n ih =>
      have hstep := (step_consumed (progressAt ls n) (lineAt ls n)).classes_eq
      rw [progressAt_succ hn, hstep, findingsBefore, List.range_succ, List.filterMap_append,
        assemble, List.foldl_append, ← findingsBefore, ← assemble, ← ih (Nat.le_of_succ_le hn),
        List.filterMap_cons, finding?]
      cases found? (progressAt ls n) (lineAt ls n) <;> rfl

/-- A type and each of its members come from one of the given declarations and
carry the block of that declaration. -/
structure StemsFrom (found : List Finding) (c : TypeDecl) : Prop where
  type : ∃ f ∈ found, f.declaration = .type c.kind c.name ∧ f.doc = c.documentation
  methods : ∀ m ∈ c.methods, ∃ f ∈ found,
    f.declaration = .method m.name m.returnType ∧ f.text = m.signature ∧ f.doc = m.documentation
  fields : ∀ m ∈ c.fields, ∃ f ∈ found,
    f.declaration = .field m.name m.typeText ∧ f.doc = m.documentation

theorem StemsFrom.append {found : List Finding} {c : TypeDecl} (h : StemsFrom found c)
    (f : Finding) : StemsFrom (found ++ [f]) c := by
  have hmono : ∀ {P : Finding → Prop}, (∃ g ∈ found, P g) → ∃ g ∈ found ++ [f], P g := by
    rintro P ⟨g, hg, hP⟩
    exact ⟨g, List.mem_append_left _ hg, hP⟩
  exact ⟨hmono h.type, fun m hm => hmono (h.methods m hm), fun m hm => hmono (h.fields m hm)⟩

theorem mem_onLast {α : Type} {g : α → α} {xs : List α} {x : α} (h : x ∈ onLast g xs) :
    x ∈ xs ∨ ∃ y ∈ xs, x = g y := by
  induction xs with
  | nil => cases h
  | cons y more ih =>
      cases more with
      | nil =>
          obtain rfl := List.mem_singleton.1 h
          exact .inr ⟨y, List.mem_cons_self, rfl⟩
      | cons z more =>
          rcases List.mem_cons.1 h with rfl | hmore
          · exact .inl List.mem_cons_self
          · rcases ih hmore with hx | ⟨w, hw, rfl⟩
            · exact .inl (List.mem_cons_of_mem _ hx)
            · exact .inr ⟨w, List.mem_cons_of_mem _ hw, rfl⟩

/-- Everything that is put together stems from a declaration. -/
theorem stemsFrom_assemble (found : List Finding) : ∀ c ∈ assemble found, StemsFrom found c := by
  induction found using List.reverseRecOn with
  | nil => exact fun c hc => nomatch hc
  | append_singleton found f ih =>
      intro c hc
      have hlast : f ∈ found ++ [f] := List.mem_append_right _ List.mem_cons_self
      rw [assemble, List.foldl_append, ← assemble] at hc
      change c ∈ record (assemble found) f.text f.doc f.declaration at hc
      cases hf : f.declaration with
      | type kind name =>
          rw [hf] at hc
          rcases List.mem_append.1 hc with hold | hnew
          · exact (ih c hold).append f
          · obtain rfl := List.mem_singleton.1 hnew
            exact ⟨⟨f, hlast, hf, rfl⟩, fun m hm => (nomatch hm), fun m hm => nomatch hm⟩
      | method name returnType =>
          rw [hf] at hc
          rcases mem_onLast hc with hold | ⟨d, hd, rfl⟩
          · exact (ih c hold).append f
          · have hstems := (ih d hd).append f
            refine ⟨hstems.type, fun m hm => ?_, hstems.fields⟩
            rcases List.mem_append.1 hm with hold | hnew
            · exact hstems.methods m hold
            · obtain rfl := List.mem_singleton.1 hnew
              exact ⟨f, hlast, hf, rfl, rfl⟩
      | field name typeText =>
          rw [hf] at hc
          rcases mem_onLast hc with hold | ⟨d, hd, rfl⟩
          · exact (ih c hold).append f
          · have hstems := (ih d hd).append f
            refine ⟨hstems.type, hstems.methods, fun m hm => ?_⟩
            rcases List.mem_append.1 hm with hold | hnew
            · exact hstems.fields m hold
            · obtain rfl := List.mem_singleton.1 hnew
              exact ⟨f, hlast, hf, rfl⟩

/-! ### Which block documents a declaration -/

/-- A block is closed where its lines are collected, or on the line that opens it. -/
theorem ClosedOn.met {ls : List Text} {n : Nat} {b : Block} (h : ClosedOn ls n b)
    (hn : n ≤ ls.length) :
    (∃ own, (progressAt ls n).place = .docBlock own) ∨
      MetInCode ls n ∧ OpensBlock (lineAt ls n) := by
  obtain ⟨o, hopen, -⟩ := h
  rcases Nat.lt_or_eq_of_le hopen.le with hlt | rfl
  · exact .inl ⟨_, place_of_openFrom hopen hlt hn⟩
  · exact .inr ⟨hopen.met, hopen.opens⟩

theorem not_closedOn_of_isCode {ls : List Text} {n : Nat} (hmet : MetInCode ls n)
    (hcode : IsCode (lineAt ls n)) (hn : n ≤ ls.length) (b : Block) : ¬ ClosedOn ls n b := by
  intro h
  rcases h.met hn with ⟨own, hplace⟩ | ⟨-, hopens⟩
  · rw [hmet] at hplace
    cases hplace
  · exact hcode.notBlock hopens

theorem not_closedOn_of_plainCommentAt {ls : List Text} {n : Nat} (hplain : PlainCommentAt ls n)
    (hn : n ≤ ls.length) (b : Block) : ¬ ClosedOn ls n b := by
  intro h
  rcases h.met hn with ⟨own, hplace⟩ | ⟨hmet, hopens⟩
  · rw [PlainCommentAt, hplace] at hplain
    rcases hplain with ⟨hcode, -⟩ | hcomment
    · cases hcode
    · cases hcomment
  · rcases hplain with ⟨-, hcomment⟩ | hplace
    · exact hcomment.not_opensBlock hopens
    · rw [hmet] at hplace
      cases hplace

theorem not_plainCommentAt_of_isCode {ls : List Text} {n : Nat} (hmet : MetInCode ls n)
    (hcode : IsCode (lineAt ls n)) : ¬ PlainCommentAt ls n := by
  rintro (⟨-, hplain⟩ | hplace)
  · exact hcode.notComment hplain
  · rw [hmet] at hplace
    cases hplace

/-- At most one block reaches a line. -/
theorem Reaches.unique {ls : List Text} {i j n : Nat} {b c : Block} (hi : Reaches ls i n b)
    (hj : Reaches ls j n c) (hn : n ≤ ls.length) : i = j ∧ b = c := by
  -- a block closed later would have been closed on one of the comments in between
  have hle : ∀ {i j : Nat} {b c : Block}, Reaches ls i n b → Reaches ls j n c → j ≤ i := by
    intro i j b c hi hj
    refine Nat.le_of_not_lt fun hlt => ?_
    have hjn := Nat.le_trans (Nat.le_of_lt hj.lt) hn
    exact not_closedOn_of_plainCommentAt (hi.between j hlt hj.lt) hjn c hj.closed
  have hb := pending_of_reaches hi hn
  rw [pending_of_reaches hj hn] at hb
  exact ⟨Nat.le_antisymm (hle hj hi) (hle hi hj), (Option.some.inj hb).symm⟩

/-- A block that reaches a line was closed after every earlier line of code. -/
theorem Reaches.after_code {ls : List Text} {i n m : Nat} {b : Block} (h : Reaches ls i n b)
    (hmet : MetInCode ls m) (hcode : IsCode (lineAt ls m)) (hlt : m < n) (hn : n ≤ ls.length) :
    m < i := by
  rcases Nat.lt_trichotomy m i with hbefore | rfl | hafter
  · exact hbefore
  · have hm := Nat.le_trans (Nat.le_of_lt hlt) hn
    exact absurd h.closed (not_closedOn_of_isCode hmet hcode hm b)
  · exact absurd (h.between m hafter hlt) (not_plainCommentAt_of_isCode hmet hcode)

/-- The types of a text are made up of its declarations, and every declaration
carries the block that reaches its line. -/
structure Attachment (ls : List Text) (found : List Finding) (classes : List TypeDecl) : Prop where
  produced : classes = assemble found
  stems : ∀ c ∈ classes, StemsFrom found c
  located : ∀ f ∈ found, ls[f.line]? = some f.text ∧ MetInCode ls f.line ∧
    declarationOn? f.text = some f.declaration
  documented : ∀ f ∈ found, ∀ b, f.doc = some b ↔ ∃ i, Reaches ls i f.line b
  unique : ∀ f ∈ found, ∀ i j b c, Reaches ls i f.line b → Reaches ls j f.line c → i = j ∧ b = c
  /-- The block of a later declaration is closed after the earlier declaration, so no
  block is carried twice and the blocks stand in source order. -/
  ordered : found.Pairwise fun f g => f.line < g.line ∧
    ∀ i j b c, Reaches ls i f.line b → Reaches ls j g.line c → i < f.line ∧ f.line < j
  /-- No separator and no line of code stands between a block and its declaration. -/
  adjacent : ∀ f ∈ found, ∀ i b, Reaches ls i f.line b → ∀ k, i < k → k < f.line →
    ¬ (MetInCode ls k ∧ (isSeparator (lineAt ls k) = true ∨ IsCode (lineAt ls k)))

/-- Every declaration of a text carries the block closed before it with nothing but
plain comments in between, or none. -/
theorem documentation_attachment (content : Text) :
    Attachment (trimmedLines content) (findings content) (classesOf content) := by
  obtain ⟨ls, hls⟩ : ∃ ls, ls = trimmedLines content := ⟨_, rfl⟩
  have hfound : ∀ f ∈ findings content, f.line < ls.length ∧ finding? ls f.line = some f := by
    intro f hf
    rw [findings, ← hls] at hf
    exact mem_findingsBefore hf
  have hproduced : classesOf content = assemble (findings content) := by
    rw [classesOf_eq, findings]
    exact classes_progressAt (Nat.le_refl _)
  rw [← hls]
  refine ⟨hproduced, ?_, fun f hf => ?_, fun f hf b => ?_, fun f hf i j b c hi hj => ?_, ?_, ?_⟩
  · rw [hproduced]
    exact stemsFrom_assemble _
  · obtain ⟨hlt, hfinding⟩ := hfound f hf
    obtain ⟨-, htext, hmet, -, hdeclared, -⟩ := finding?_eq_some hfinding
    refine ⟨?_, hmet, declarationOn?_of_declared? hdeclared⟩
    rw [htext, lineAt, List.getElem?_eq_getElem hlt, Option.getD_some]
  · obtain ⟨hlt, hfinding⟩ := hfound f hf
    obtain ⟨-, -, hmet, -, -, hdoc⟩ := finding?_eq_some hfinding
    rw [hdoc]
    exact pending_iff_reaches (Nat.le_of_lt hlt) hmet b
  · exact hi.unique hj (Nat.le_of_lt (hfound f hf).1)
  · have hpairwise : (findings content).Pairwise fun f g => f.line < g.line :=
      findingsBefore_pairwise _ _
    refine hpairwise.imp_of_mem fun {f g} hf hg hlt => ⟨hlt, fun i j b c hi hj => ⟨hi.lt, ?_⟩⟩
    obtain ⟨-, htext, hmet, hcode, -⟩ := finding?_eq_some (hfound f hf).2
    exact hj.after_code hmet (htext ▸ hcode) hlt (Nat.le_of_lt (hfound g hg).1)
  · rintro f hf i b hi k hik hkn ⟨hmet, hseparator | hcode⟩
    · rcases hi.between k hik hkn with ⟨-, hcomment⟩ | hplace
      · rw [isSeparator_of_isPlainComment hcomment] at hseparator
        cases hseparator
      · rw [hmet] at hplace
        cases hplace
    · exact not_plainCommentAt_of_isCode hmet hcode (hi.between k hik hkn)

end DocPress.Javadoc
