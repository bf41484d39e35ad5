import DocPress.Model.Workspace
import Mathlib.Algebra.GroupWithZero.Nat

/-!
# Histories of a workspace

A workspace keeps no record of what was done to it.  A history does, and it tells every part
of the workspace at every point: a method has the parameters that its block described at the
place of the last attachment to the method, a block has the text that was last written into
it, and everything else is read from the blocks as they are at the point.

What one operation can do to a method and to a block is said once (`method_step`,
`block_step`); the facts about histories follow from these by induction over the points.

A block that a method comes with is its own, and no operation names it.  A block that is to be
shared or written into is made first and then attached, which gives the method the same
parameters.
-/

namespace DocPress

/-- A method that has the parameters of its block. -/
def Method.IsAttached (m : Method) : Prop := m.parameters = attachedParameters m.documentation

namespace Workspace

/-! ### Operations -/

/-- The documentation that an attachment gives. -/
def Doc.ofBlock? : Option Nat → Doc
  | .none => .none
  | .some id => .shared id

/-- A reference to one of the first `n` blocks, or to none of them. -/
def Doc.Within (n : Nat) : Doc → Prop
  | .shared id => id < n
  | _ => True

theorem Doc.Within.mono {n n' : Nat} {doc : Doc} (h : doc.Within n) (hn : n ≤ n') :
    doc.Within n' := by
  cases doc with
  | shared id => exact Nat.lt_of_lt_of_le h hn
  | _ => trivial

namespace Operation

/-- Write a text into a block, or nothing at all, which leaves the block empty. -/
def assign (block : Nat) (raw : Option Text) : Operation := .editBlock block (raw.getD [])

/-- The blocks that an operation gives to others. -/
def shared : Operation → List Nat
  | .attach _ (some id) => [id]
  | .shareWithType _ id => [id]
  | _ => []

/-- The methods that an operation brings, in the order in which they are numbered. -/
def methods : Operation → List Method
  | .addFile f => f.classes.flatMap TypeDecl.methods
  | .addType _ c => c.methods
  | .addMethod _ m => [m]
  | _ => []

/-- An operation on what exists: blocks are shared after they were made, and methods come
with the parameters of their blocks. -/
structure IsPossible (s : State) (op : Operation) : Prop where
  blocks : ∀ id ∈ op.shared, id < s.blocks.length
  methods : ∀ m ∈ op.methods, m.IsAttached

/-- The documentation that a method comes with when it is one of those numbered next. -/
def broughtTo? (s : State) (m : Nat) (ms : List Method) : Option Doc :=
  if m < s.methods.length then none
  else ms[m - s.methods.length]?.map fun x => State.ownDoc x.documentation

/-- The documentation that an operation gives a method, by attaching it or by bringing the
method with it. -/
def givenTo? (s : State) (m : Nat) : Operation → Option Doc
  | .attach method block => if method = m then some (.ofBlock? block) else none
  | op => broughtTo? s m op.methods

/-- The text that an operation writes into a block. -/
def writtenTo? (s : State) (k : Nat) : Operation → Option Text
  | .addBlock raw => if s.blocks.length = k then some raw else none
  | .editBlock block raw => if block = k then some raw else none
  | _ => none

end Operation

namespace State

/-- A method by number, as it stands now. -/
def method? (s : State) (m : Nat) : Option Method := s.methods[m]?.map s.method

/-- A method holds a block that others may hold too. -/
def HoldsBlock (s : State) (m k : Nat) : Prop := ∃ e, s.methods[m]? = some e ∧ e.doc = .shared k

/-- The numbers of the methods in the project, in its order. -/
def members (s : State) : List Nat :=
  s.files.flatMap fun f => f.classes.flatMap fun c => (s.types[c]?.map TypeEntry.methods).getD []

/-- The workspace after some operations. -/
def run (s : State) (ops : List Operation) : State := ops.foldl (fun s op => (s.apply op).1) s

/-- The entry of a finished method. -/
def entryOf (m : Method) : MethodEntry :=
  ⟨m.name, m.signature, m.returnType, ownDoc m.documentation, m.parameters⟩

/-- An operation changes nothing but what it names, and what is read from the block that it
writes into. -/
structure ChangesOnly (s : State) (op : Operation) (s' : State) : Prop where
  blocks : ∀ k < s.blocks.length, (∀ raw, op ≠ .editBlock k raw) → s'.blocks[k]? = s.blocks[k]?
  methods : ∀ m < s.methods.length, (∀ block, op ≠ .attach m block) →
    (∀ k raw, op = .editBlock k raw → ¬ s.HoldsBlock m k) → s'.method? m = s.method? m
  /-- The holders of a block keep all that is theirs. -/
  holders : ∀ k raw m x, op = .editBlock k raw → s.HoldsBlock m k → s.method? m = some x →
    s'.method? m = some { x with documentation := some ⟨raw⟩ }
  /-- An attachment leaves the declaration of the method as it is. -/
  attached : ∀ m block x, op = .attach m block → s.method? m = some x →
    ∃ y, s'.method? m = some y ∧ y.name = x.name ∧ y.signature = x.signature ∧
      y.returnType = x.returnType

end State

/-! ### Histories -/

/-- Operations that are carried out one after the other, from a project without files. -/
structure History where
  name : Text
  operations : List Operation
  possible : ∀ (i : Nat) (op : Operation), operations[i]? = some op →
    op.IsPossible ((State.empty name).run (operations.take i))

namespace History

/-- The workspace after the first `n` operations. -/
def stateAt (h : History) (n : Nat) : State := (State.empty h.name).run (h.operations.take n)

/-- What the operation at a place does to something, if it does anything. -/
def event? {α : Type} (h : History) (effect : State → Operation → Option α) (i : Nat) : Option α :=
  h.operations[i]?.bind (effect (h.stateAt i))

/-- What the operation at a place gives a method. -/
def given? (h : History) (m : Nat) : Nat → Option Doc := h.event? fun s op => op.givenTo? s m

/-- What the operation at a place writes into a block. -/
def written? (h : History) (k : Nat) : Nat → Option Text := h.event? fun s op => op.writtenTo? s k

end History

/-- The last place before `n` at which something happened, and what it was. -/
structure LastBefore {α : Type} (happened : Nat → Option α) (n i : Nat) (x : α) : Prop where
  before : i < n
  here : happened i = some x
  last : ∀ j, i < j → j < n → happened j = none

theorem lastBefore_succ {α : Type} {happened : Nat → Option α} {n : Nat} {x : α}
    (h : happened n = some x) : LastBefore happened (n + 1) n x :=
  ⟨n.lt_succ_self, h, fun j hj hjn => by omega⟩

theorem LastBefore.succ {α : Type} {happened : Nat → Option α} {n i : Nat} {x : α}
    (h : LastBefore happened n i x) (hn : happened n = none) :
    LastBefore happened (n + 1) i x := by
  refine ⟨by have := h.before; omega, h.here, fun j hj hjn => ?_⟩
  by_cases hjn' : j = n
  · rw [hjn', hn]
  · exact h.last j hj (by omega)

/-! ### What an operation does -/

namespace State

variable {s : State} {op : Operation} {m k : Nat}

theorem pushMethods_fst (s : State) (ms : List Method) :
    (s.pushMethods ms).1 = { s with methods := s.methods ++ ms.map entryOf } := by
  induction ms generalizing s with
  | nil => simp [pushMethods]
  | cons m ms ih => simp [pushMethods, pushMethod, ih, entryOf]

theorem pushType_fst (s : State) (c : TypeDecl) :
    (s.pushType c).1.blocks = s.blocks ∧
      (s.pushType c).1.methods = s.methods ++ c.methods.map entryOf := by
  simp [pushType, pushMethods_fst]

theorem pushTypes_fst (s : State) (cs : List TypeDecl) :
    (s.pushTypes cs).1.blocks = s.blocks ∧
      (s.pushTypes cs).1.methods =
        s.methods ++ (cs.flatMap TypeDecl.methods).map entryOf := by
  induction cs generalizing s with
  | nil => simp [pushTypes]
  | cons c cs ih =>
      obtain ⟨hblocks, hmethods⟩ := pushType_fst s c
      obtain ⟨ihblocks, ihmethods⟩ := ih (s.pushType c).1
      simp [pushTypes, ihblocks, ihmethods, hblocks, hmethods]

/-- Blocks are made at the end and written into in place. -/
theorem blocks_apply (s : State) (op : Operation) :
    (s.apply op).1.blocks =
      match op with
      | .addBlock raw => s.blocks ++ [⟨raw⟩]
      | .editBlock block raw => s.blocks.modify block fun _ => ⟨raw⟩
      | _ => s.blocks := by
  cases op with
  | addFile f => exact (pushTypes_fst s f.classes).1
  | addType file c => exact (pushType_fst s c).1
  | inspect method => simp only [apply]; split <;> rfl
  | _ => rfl

/-- Methods are numbered at the end and get another block in place. -/
theorem methods_apply (s : State) (op : Operation) :
    (s.apply op).1.methods =
      match op with
      | .attach method block => s.methods.modify method fun e =>
          { e with
            doc := .ofBlock? block
            parameters := attachedParameters (s.block? (.ofBlock? block)) }
      | op => s.methods ++ op.methods.map entryOf := by
  cases op with
  | addFile f => exact (pushTypes_fst s f.classes).2
  | addType file c => exact (pushType_fst s c).2
  | attach method block => cases block <;> rfl
  | inspect method => simp only [apply, Operation.methods]; split <;> simp
  | _ => simp [apply, Operation.methods, pushMethod, entryOf]

@[simp] theorem block?_ownDoc (s : State) (b : Option Block) : s.block? (ownDoc b) = b := by
  cases b <;> rfl

theorem length_blocks_le (s : State) (op : Operation) :
    s.blocks.length ≤ (s.apply op).1.blocks.length := by
  rw [blocks_apply]
  cases op <;> simp

theorem length_methods_le (s : State) (op : Operation) :
    s.methods.length ≤ (s.apply op).1.methods.length := by
  rw [methods_apply]
  cases op <;> simp

/-- A block after an operation has the text that the operation wrote into it, or was the same
before. -/
theorem block_step {b : Block} (h : (s.apply op).1.blocks[k]? = some b) :
    op.writtenTo? s k = some b.rawText ∨ op.writtenTo? s k = none ∧ s.blocks[k]? = some b := by
  rw [blocks_apply] at h
  cases op with
  | addBlock raw =>
      simp only [Operation.writtenTo?]
      by_cases hk : s.blocks.length = k
      · subst hk
        rw [List.getElem?_concat_length] at h
        cases h
        exact .inl (if_pos rfl)
      · refine .inr ⟨if_neg hk, ?_⟩
        obtain ⟨hlt, -⟩ := List.getElem?_eq_some_iff.1 h
        rw [List.length_append, List.length_singleton] at hlt
        rwa [List.getElem?_append_left (by omega)] at h
  | editBlock block raw =>
      simp only [Operation.writtenTo?]
      by_cases hk : block = k
      · subst hk
        rw [List.getElem?_modify_eq] at h
        obtain ⟨-, -, rfl⟩ := Option.map_eq_some_iff.1 h
        exact .inl (if_pos rfl)
      · rw [List.getElem?_modify_ne _ _ hk] at h
        exact .inr ⟨if_neg hk, h⟩
  | _ => exact .inr ⟨rfl, h⟩

/-- Methods at the end of the list come with their own blocks. -/
theorem method_append {ms : List Method} {e : MethodEntry} (hms : ∀ x ∈ ms, x.IsAttached)
    (h : (s.methods ++ ms.map entryOf)[m]? = some e) :
    Operation.broughtTo? s m ms = some e.doc ∧
        e.parameters = attachedParameters (s.block? e.doc) ∨
      Operation.broughtTo? s m ms = none ∧ s.methods[m]? = some e := by
  rw [Operation.broughtTo?]
  by_cases hm : m < s.methods.length
  · rw [List.getElem?_append_left hm] at h
    exact .inr ⟨if_pos hm, h⟩
  · -- a method that is new here has a number behind those in use
    rw [List.getElem?_append_right (by omega), List.getElem?_map] at h
    obtain ⟨x, hx, rfl⟩ := Option.map_eq_some_iff.1 h
    refine .inl ⟨by rw [if_neg hm, hx]; rfl, ?_⟩
    have hattached : x.parameters = attachedParameters x.documentation :=
      hms x (List.mem_of_getElem? hx)
    rw [entryOf, block?_ownDoc, hattached]

/-- A method after an operation has the block that the operation gave it, with the parameters
that the block describes now, or was the same before. -/
theorem method_step {e : MethodEntry} (hop : op.IsPossible s)
    (h : (s.apply op).1.methods[m]? = some e) :
    op.givenTo? s m = some e.doc ∧ e.parameters = attachedParameters (s.block? e.doc) ∨
      op.givenTo? s m = none ∧ s.methods[m]? = some e := by
  rw [methods_apply] at h
  cases op with
  | attach method block =>
      simp only [Operation.givenTo?]
      by_cases hm : method = m
      · subst hm
        rw [List.getElem?_modify_eq] at h
        obtain ⟨-, -, rfl⟩ := Option.map_eq_some_iff.1 h
        exact .inl ⟨if_pos rfl, rfl⟩
      · rw [List.getElem?_modify_ne _ _ hm] at h
        exact .inr ⟨if_neg hm, h⟩
  | _ => exact method_append hop.methods h

/-! ### What an operation leaves alone -/

theorem eq_of_writtenTo?_eq_some {raw : Text} (h : op.writtenTo? s k = some raw) :
    s.blocks.length = k ∨ op = .editBlock k raw := by
  cases op with
  | addBlock text =>
      simp only [Operation.writtenTo?, Option.ite_none_right_eq_some] at h
      exact .inl h.1
  | editBlock block text =>
      simp only [Operation.writtenTo?, Option.ite_none_right_eq_some, Option.some.injEq] at h
      obtain ⟨rfl, rfl⟩ := h
      exact .inr rfl
  | _ => cases h

theorem eq_of_broughtTo?_eq_some {ms : List Method} {doc : Doc}
    (h : Operation.broughtTo? s m ms = some doc) :
    s.methods.length ≤ m ∧ ∃ b, doc = ownDoc b := by
  rw [Operation.broughtTo?, Option.ite_none_left_eq_some] at h
  obtain ⟨hm, h⟩ := h
  obtain ⟨x, -, rfl⟩ := Option.map_eq_some_iff.1 h
  exact ⟨by omega, x.documentation, rfl⟩

theorem eq_of_givenTo?_eq_some {doc : Doc} (h : op.givenTo? s m = some doc) :
    (∃ block, op = .attach m block ∧ doc = .ofBlock? block) ∨
      s.methods.length ≤ m ∧ ∃ b, doc = ownDoc b := by
  cases op with
  | attach method block =>
      simp only [Operation.givenTo?, Option.ite_none_right_eq_some, Option.some.injEq] at h
      obtain ⟨rfl, rfl⟩ := h
      exact .inl ⟨block, rfl, rfl⟩
  | _ => exact .inr (eq_of_broughtTo?_eq_some h)

/-- Every block that a method refers to exists. -/
def IsClosed (s : State) : Prop :=
  ∀ (m : Nat) (e : MethodEntry), s.methods[m]? = some e → e.doc.Within s.blocks.length

theorem within_ownDoc (n : Nat) (b : Option Block) : (ownDoc b).Within n := by
  cases b <;> trivial

theorem IsClosed.apply (hs : s.IsClosed) (hop : op.IsPossible s) : (s.apply op).1.IsClosed := by
  intro m e he
  have hlength := length_blocks_le s op
  rcases method_step hop he with ⟨hgiven, -⟩ | ⟨-, hold⟩
  · rcases eq_of_givenTo?_eq_some hgiven with ⟨block, rfl, hdoc⟩ | ⟨-, b, hdoc⟩
    · rw [hdoc]
      cases block with
      | none => trivial
      | some id => exact Nat.lt_of_lt_of_le (hop.blocks id (by simp [Operation.shared])) hlength
    · rw [hdoc]
      exact within_ownDoc _ b
  · exact (hs m e hold).mono hlength

theorem blocks_unchanged (hk : k < s.blocks.length) (hop : ∀ raw, op ≠ .editBlock k raw) :
    (s.apply op).1.blocks[k]? = s.blocks[k]? := by
  -- the block is still there, and a step gives it only one place to come from
  have hk' : k < (s.apply op).1.blocks.length := Nat.lt_of_lt_of_le hk (length_blocks_le s op)
  obtain ⟨b, hb⟩ : ∃ b, (s.apply op).1.blocks[k]? = some b := ⟨_, List.getElem?_eq_getElem hk'⟩
  rcases block_step hb with hwritten | ⟨-, hold⟩
  · rcases eq_of_writtenTo?_eq_some hwritten with hlength | hedit
    · omega
    · exact absurd hedit (hop _)
  · rw [hb, hold]

theorem methods_unchanged (hop : op.IsPossible s) (hm : m < s.methods.length)
    (hattach : ∀ block, op ≠ .attach m block) :
    (s.apply op).1.methods[m]? = s.methods[m]? := by
  have hm' : m < (s.apply op).1.methods.length := Nat.lt_of_lt_of_le hm (length_methods_le s op)
  obtain ⟨e, he⟩ : ∃ e, (s.apply op).1.methods[m]? = some e := ⟨_, List.getElem?_eq_getElem hm'⟩
  rcases method_step hop he with ⟨hgiven, -⟩ | ⟨-, hold⟩
  · rcases eq_of_givenTo?_eq_some hgiven with ⟨block, hblock, -⟩ | ⟨hlength, -⟩
    · exact absurd hblock (hattach block)
    · omega
  · rw [he, hold]

theorem block?_unchanged {doc : Doc} (hdoc : doc.Within s.blocks.length)
    (hop : ∀ k raw, op = .editBlock k raw → doc ≠ .shared k) :
    (s.apply op).1.block? doc = s.block? doc := by
  cases doc with
  | shared k => exact blocks_unchanged hdoc fun raw hraw => hop k raw hraw rfl
  | _ => rfl

theorem block_assign (raw : Option Text) (hk : k < s.blocks.length) :
    (s.apply (.assign k raw)).1.blocks[k]? = some ⟨raw.getD []⟩ := by
  rw [Operation.assign, blocks_apply, List.getElem?_modify_eq, List.getElem?_eq_getElem hk]
  rfl

theorem changesOnly_apply (hs : s.IsClosed) (hop : op.IsPossible s) :
    s.ChangesOnly op (s.apply op).1 where
  blocks k hk hedit := blocks_unchanged hk hedit
  methods m hm hattach hholds := by
    rw [method?, method?, methods_unchanged hop hm hattach]
    cases he : s.methods[m]? with
    | none => rfl
    | some e =>
        -- the entry is as it was, and so is the block behind it, which exists already
        have hblock := block?_unchanged (hs m e he) fun k raw hraw hdoc =>
          hholds k raw hraw ⟨e, he, hdoc⟩
        simp only [Option.map_some, method, hblock]
  holders k raw m x hedit hholds hx := by
    obtain ⟨e, he, hdoc⟩ := hholds
    subst hedit
    have hk : k < s.blocks.length := by
      have hwithin := hs m e he
      rwa [hdoc] at hwithin
    have hm := (List.getElem?_eq_some_iff.1 he).1
    have hblock : (s.apply (.editBlock k raw)).1.block? (.shared k) = some ⟨raw⟩ :=
      block_assign (some raw) hk
    rw [method?, he] at hx
    cases hx
    rw [method?, methods_unchanged hop hm (fun _ h => by cases h), he]
    simp only [Option.map_some, method, hdoc, hblock]
  attached m block x hattach hx := by
    obtain ⟨e, he, rfl⟩ := Option.map_eq_some_iff.1 hx
    subst hattach
    refine ⟨(s.apply (.attach m block)).1.method { e with
      doc := .ofBlock? block
      parameters := attachedParameters (s.block? (.ofBlock? block)) }, ?_, rfl, rfl, rfl⟩
    rw [method?, methods_apply, List.getElem?_modify_eq, he]
    rfl

/-! ### The methods of the project -/

theorem flatMap_methods_typeDecl (s : State) (ids : List Nat) :
    (ids.filterMap fun id => s.types[id]?.map s.typeDecl).flatMap TypeDecl.methods =
      ids.flatMap fun id =>
        ((s.types[id]?.map TypeEntry.methods).getD []).filterMap s.method? := by
  induction ids with
  | nil => rfl
  | cons id ids ih =>
      rw [List.flatMap_cons, List.filterMap_cons]
      cases hid : s.types[id]? with
      | none => simpa using ih
      | some c =>
          simp only [Option.map_some, List.flatMap_cons, Option.getD_some, ih]
          rfl

/-- The methods in the project are those with the numbers of its members, as they stand. -/
theorem methods_project (s : State) : s.project.methods = s.members.filterMap s.method? := by
  simp only [Project.methods, Project.classes, project, members, List.flatMap_map,
    List.flatMap_assoc, List.filterMap_flatMap, ← flatMap_methods_typeDecl]
  rfl

theorem parameters_counts (s : State) :
    s.project.counts.parameters =
      ((s.members.filterMap s.method?).map fun x => x.parameters.length).sum := by
  rw [← methods_project, ← List.length_flatMap]
  rfl

end State

/-! ### Points of a history -/

namespace History

variable {h : History} {n m k : Nat}

theorem stateAt_zero (h : History) : h.stateAt 0 = .empty h.name := rfl

theorem stateAt_succ_of_none (hn : h.operations[n]? = none) : h.stateAt (n + 1) = h.stateAt n := by
  rw [stateAt, List.take_add_one, hn, Option.toList_none, List.append_nil, stateAt]

theorem stateAt_succ_of_some {op : Operation} (hn : h.operations[n]? = some op) :
    h.stateAt (n + 1) = ((h.stateAt n).apply op).1 := by
  rw [stateAt, List.take_add_one, hn, Option.toList_some, State.run, List.foldl_append]
  rfl

theorem isClosed_stateAt (h : History) (n : Nat) : (h.stateAt n).IsClosed := by
  induction n with
  | zero =>
      intro m e he
      simp [stateAt_zero, State.empty] at he
  | succ n ih =>
      cases hn : h.operations[n]? with
      | none => rwa [stateAt_succ_of_none hn]
      | some op =>
          rw [stateAt_succ_of_some hn]
          exact ih.apply (h.possible n op hn)

/-- A part of a workspace that an operation can only make anew or leave alone is as the last
operation that made it anew left it. -/
theorem exists_last {α β : Type} (effect : State → Operation → Option α) (part : State → Option β)
    (Made : State → α → β → Prop) (hempty : part (.empty h.name) = none)
    (hstep : ∀ {s : State} {op : Operation} {x : β}, op.IsPossible s →
      part (s.apply op).1 = some x →
        (∃ a, effect s op = some a ∧ Made s a x) ∨ effect s op = none ∧ part s = some x)
    {x : β} (hx : part (h.stateAt n) = some x) :
    ∃ i a, LastBefore (h.event? effect) n i a ∧ Made (h.stateAt i) a x := by
  -- on the number of operations: the new one is the last, or the last one before it still is
  induction n with
  | zero =>
      rw [stateAt_zero, hempty] at hx
      cases hx
  | succ n ih =>
      cases hn : h.operations[n]? with
      | none =>
          rw [stateAt_succ_of_none hn] at hx
          obtain ⟨i, a, hlast, hmade⟩ := ih hx
          exact ⟨i, a, hlast.succ (by rw [event?, hn]; rfl), hmade⟩
      | some op =>
          rw [stateAt_succ_of_some hn] at hx
          have hevent : h.event? effect n = effect (h.stateAt n) op := by rw [event?, hn]; rfl
          rcases hstep (h.possible n op hn) hx with ⟨a, ha, hmade⟩ | ⟨hnone, hold⟩
          · exact ⟨n, a, lastBefore_succ (hevent.trans ha), hmade⟩
          · obtain ⟨i, a, hlast, hmade⟩ := ih hold
            exact ⟨i, a, hlast.succ (hevent.trans hnone), hmade⟩

/-- A method has the parameters that its block described when it was last attached. -/
theorem exists_lastGiven {e : MethodEntry} (he : (h.stateAt n).methods[m]? = some e) :
    ∃ i, LastBefore (h.given? m) n i e.doc ∧
      e.parameters = attachedParameters ((h.stateAt i).block? e.doc) := by
  obtain ⟨i, doc, hlast, rfl, hparameters⟩ := exists_last (fun s op => op.givenTo? s m)
    (fun s => s.methods[m]?)
    (fun s doc e => e.doc = doc ∧ e.parameters = attachedParameters (s.block? doc)) rfl
    (fun hop hx => (State.method_step hop hx).imp_left fun hnew => ⟨_, hnew.1, rfl, hnew.2⟩) he
  exact ⟨i, hlast, hparameters⟩

/-- A block has the text that was last written into it. -/
theorem exists_lastWritten {b : Block} (hb : (h.stateAt n).blocks[k]? = some b) :
    ∃ i, LastBefore (h.written? k) n i b.rawText := by
  obtain ⟨i, raw, hlast, rfl⟩ := exists_last (fun s op => op.writtenTo? s k)
    (fun s => s.blocks[k]?) (fun _ raw b => b.rawText = raw) rfl
    (fun _ hx => (State.block_step hx).imp_left fun hnew => ⟨_, hnew, rfl⟩) hb
  exact ⟨i, hlast⟩

/-- A history tells its workspace at every point.  The parameters of a method are those that
its block described at the last attachment, and its other documentation is read from the block
as it is now; a block says what the text last written into it says; an operation changes only
what it names, and what is read from a block that it writes into; and the parameters that are
counted are those of the methods in the project. -/
theorem workspace_of_history (h : History) (n : Nat) :
    (∀ m x, (h.stateAt n).method? m = some x → ∃ i doc,
        LastBefore (h.given? m) n i doc ∧
        x.parameters = attachedParameters ((h.stateAt i).block? doc) ∧
        x.documentation = (h.stateAt n).block? doc ∧
        (h.stateAt n).returnDescription? m = ((h.stateAt n).block? doc).bind fun b =>
          ((Comment.parse b.rawText).tags.values Block.returnTag).head?) ∧
      (∀ k b, (h.stateAt n).blocks[k]? = some b → ∃ i raw,
        LastBefore (h.written? k) n i raw ∧ b.rawText = raw ∧
        b.description = (Comment.parse raw).description ∧ b.tags = (Comment.parse raw).tags) ∧
      (∀ op, op.IsPossible (h.stateAt n) →
        (h.stateAt n).ChangesOnly op ((h.stateAt n).apply op).1) ∧
      (∀ k raw, k < (h.stateAt n).blocks.length →
        ((h.stateAt n).apply (.assign k raw)).1.blocks[k]? = some ⟨raw.getD []⟩) ∧
      (h.stateAt n).project.counts.parameters =
        (((h.stateAt n).members.filterMap (h.stateAt n).method?).map
          fun x => x.parameters.length).sum := by
  refine ⟨fun m x hx => ?_, fun k b hb => ?_, fun op hop => ?_, fun k raw hk => ?_, ?_⟩
  · obtain ⟨e, he, rfl⟩ := Option.map_eq_some_iff.1 hx
    obtain ⟨i, hlast, hparameters⟩ := exists_lastGiven he
    refine ⟨i, e.doc, hlast, hparameters, rfl, ?_⟩
    rw [State.returnDescription?, he]
    rfl
  · obtain ⟨i, hlast⟩ := exists_lastWritten hb
    exact ⟨i, b.rawText, hlast, rfl, rfl, rfl⟩
  · exact State.changesOnly_apply (h.isClosed_stateAt n) hop
  · exact State.block_assign raw hk
  · exact State.parameters_counts _

/-- Two methods share a block that is written into between the two attachments. -/
def sharing : History where
  name := "P".toList
  operations :=
    [.addFile ⟨"A.java".toList, "A.java".toList, "java".toList,
        [⟨"A".toList, "class".toList, none, [],
          [.make "f".toList [] [] none, .make "g".toList [] [] none]⟩]⟩,
      .addBlock "@param a\n@return one".toList, .attach 0 (some 0),
      .editBlock 0 "@param b\n@return two".toList, .attach 1 (some 0)]
  possible i op hop := by
    rcases i with _ | _ | _ | _ | _ | i <;> cases hop
    all_goals
      constructor
      · decide
      · simp [Operation.methods, Method.IsAttached, Method.make]

/-- Each method has the parameter that the block described when it was attached, and both
are documented by the text that was written into the block last. -/
theorem workspace_of_history_sharing : ∃ f g,
    (sharing.stateAt 5).method? 0 = some f ∧ (sharing.stateAt 5).method? 1 = some g ∧
      (∃ i doc, LastBefore (sharing.given? 0) 5 i doc ∧
        f.parameters = attachedParameters ((sharing.stateAt i).block? doc)) ∧
      (∃ i doc, LastBefore (sharing.given? 1) 5 i doc ∧
        g.parameters = attachedParameters ((sharing.stateAt i).block? doc)) ∧
      (∃ i raw, LastBefore (sharing.written? 0) 5 i raw ∧
        f.documentation = some ⟨raw⟩ ∧ g.documentation = some ⟨raw⟩) ∧
      [f, g].map Method.parameters = [[⟨"a".toList, []⟩], [⟨"b".toList, []⟩]] ∧
      (sharing.stateAt 5).project.counts.parameters = 2 := by
  obtain ⟨hmethods, hblocks, -, -, hcount⟩ := workspace_of_history sharing 5
  have hf : (sharing.stateAt 5).method? 0 = some ⟨"f".toList, [], [],
      some ⟨"@param b\n@return two".toList⟩, [⟨"a".toList, []⟩]⟩ := by decide +kernel
  have hg : (sharing.stateAt 5).method? 1 = some ⟨"g".toList, [], [],
      some ⟨"@param b\n@return two".toList⟩, [⟨"b".toList, []⟩]⟩ := by decide +kernel
  have hblock : (sharing.stateAt 5).blocks[0]? = some ⟨"@param b\n@return two".toList⟩ := by
    decide +kernel
  obtain ⟨i, doc, hgiven, hparameters, -⟩ := hmethods 0 _ hf
  obtain ⟨j, doc', hgiven', hparameters', -⟩ := hmethods 1 _ hg
  obtain ⟨k, raw, hwritten, rfl, -⟩ := hblocks 0 _ hblock
  refine ⟨_, _, hf, hg, ⟨i, doc, hgiven, hparameters⟩, ⟨j, doc', hgiven', hparameters'⟩,
    ⟨k, _, hwritten, rfl, rfl⟩, rfl, ?_⟩
  rw [hcount]
  decide +kernel

end History
end Workspace
end DocPress
