import DocPress.Proofs.Javadoc.Attachment
import Mathlib.Data.List.Forall2

/-!
# Types and members by line

A scan keeps an open type to which it adds members as it meets them.  `Grouping`
says what this comes to without any such state: each line of code that declares a
type is one type, and every other line of code belongs to the nearest type line
above it, as a method, else as a field, else as nothing.  Line numbers are kept in
lists that are filters of a range, so they stand in source order and none is listed
twice.

`grouped_progressAt` shows, line by line, that the types found so far are the ones
that the lines consumed so far describe; `scan_eq_iff_grouping` is the case of a
whole text, and says that no other file fits the description.
-/

namespace DocPress.Javadoc

open Text

/-! ### The lines of a text that declare something -/

instance : DecidablePred IsCode := fun _ => decidable_of_iff _ roleOf_eq_other_iff

instance (ls : List Text) : DecidablePred (MetInCode ls) := fun n =>
  inferInstanceAs (Decidable ((progressAt ls n).place = .code))

/-- A line of code: met in code, and neither a comment nor a separator. -/
def CodeLine (ls : List Text) (n : Nat) : Prop :=
  n < ls.length ∧ MetInCode ls n ∧ IsCode (lineAt ls n)

/-- A line of code on which a type is declared. -/
def TypeLine (ls : List Text) (n : Nat) : Prop :=
  CodeLine ls n ∧ (typeOn? (lineAt ls n)).isSome

/-- A line of code without a type, where line `k` is the nearest type line above. -/
def BelongsTo (ls : List Text) (k n : Nat) : Prop :=
  (CodeLine ls n ∧ typeOn? (lineAt ls n) = none) ∧
    TypeLine ls k ∧ k < n ∧ ∀ i < n, k < i → ¬ TypeLine ls i

/-- A line that adds a method to the type of line `k`. -/
def MethodLine (ls : List Text) (k n : Nat) : Prop :=
  BelongsTo ls k n ∧ (methodOn? (lineAt ls n)).isSome

/-- A line that adds a field to the type of line `k`: it declares no method. -/
def FieldLine (ls : List Text) (k n : Nat) : Prop :=
  BelongsTo ls k n ∧ methodOn? (lineAt ls n) = none ∧ (fieldOn? (lineAt ls n)).isSome

instance (ls : List Text) : DecidablePred (CodeLine ls) := fun _ =>
  inferInstanceAs (Decidable (_ ∧ _ ∧ _))

instance (ls : List Text) : DecidablePred (TypeLine ls) := fun _ =>
  inferInstanceAs (Decidable (_ ∧ _))

instance (ls : List Text) (k : Nat) : DecidablePred (BelongsTo ls k) := fun _ =>
  inferInstanceAs (Decidable ((_ ∧ _) ∧ _ ∧ _ ∧ _))

instance (ls : List Text) (k : Nat) : DecidablePred (MethodLine ls k) := fun _ =>
  inferInstanceAs (Decidable (_ ∧ _))

instance (ls : List Text) (k : Nat) : DecidablePred (FieldLine ls k) := fun _ =>
  inferInstanceAs (Decidable (_ ∧ _ ∧ _))

/-- The numbers below `n` with a property, in order. -/
def linesBefore (P : Nat → Prop) [DecidablePred P] (n : Nat) : List Nat :=
  (List.range n).filter fun i => decide (P i)

section linesBefore

variable {P : Nat → Prop} [DecidablePred P] {n i : Nat}

theorem mem_linesBefore : i ∈ linesBefore P n ↔ i < n ∧ P i := by
  simp [linesBefore]

theorem linesBefore_succ_pos (h : P n) : linesBefore P (n + 1) = linesBefore P n ++ [n] := by
  simp [linesBefore, List.range_succ, h]

theorem linesBefore_succ_neg (h : ¬ P n) : linesBefore P (n + 1) = linesBefore P n := by
  simp [linesBefore, List.range_succ, h]

theorem linesBefore_eq_nil (h : ∀ i < n, ¬ P i) : linesBefore P n = [] := by
  rw [List.eq_nil_iff_forall_not_mem]
  intro i hi
  obtain ⟨hlt, hP⟩ := mem_linesBefore.1 hi
  exact h i hlt hP

theorem linesBefore_pairwise (P : Nat → Prop) [DecidablePred P] (n : Nat) :
    (linesBefore P n).Pairwise (· < ·) :=
  List.pairwise_lt_range.filter _

end linesBefore

/-! ### What the lines describe -/

/-- The documentation of a declaration on line `n`: the block that has reached it. -/
def DocOf (ls : List Text) (n : Nat) (doc : Option Block) : Prop :=
  ∀ b, doc = some b ↔ ∃ i, Reaches ls i n b

/-- The method that line `n` declares. -/
structure IsMethodOn (ls : List Text) (n : Nat) (m : Method) : Prop where
  declared : methodOn? (lineAt ls n) = some (.method m.name m.returnType)
  signature : m.signature = lineAt ls n
  doc : DocOf ls n m.documentation
  parameters : m.parameters = attachedParameters m.documentation

/-- The field that line `n` declares. -/
structure IsFieldOn (ls : List Text) (n : Nat) (f : Field) : Prop where
  declared : fieldOn? (lineAt ls n) = some (.field f.name f.typeText)
  doc : DocOf ls n f.documentation

/-- The type that line `k` declares, with the members on its lines before line `n`. -/
structure IsTypeOn (ls : List Text) (n k : Nat) (c : TypeDecl) : Prop where
  declared : typeOn? (lineAt ls k) = some (.type c.kind c.name)
  doc : DocOf ls k c.documentation
  methods : List.Forall₂ (IsMethodOn ls) (linesBefore (MethodLine ls k) n) c.methods
  fields : List.Forall₂ (IsFieldOn ls) (linesBefore (FieldLine ls k) n) c.fields

/-- The types that the lines before line `n` describe, one for each type line. -/
def Grouped (ls : List Text) (n : Nat) (classes : List TypeDecl) : Prop :=
  List.Forall₂ (IsTypeOn ls n) (linesBefore (TypeLine ls) n) classes

/-- The types that all lines of a text describe.  Every line of code without a type
that stands below a type line belongs to exactly one type line, and no other line
belongs to any. -/
structure Grouping (ls : List Text) (classes : List TypeDecl) : Prop where
  types : Grouped ls ls.length classes
  owned : ∀ n, CodeLine ls n → typeOn? (lineAt ls n) = none →
    (∃ k < n, TypeLine ls k) → ∃! k, BelongsTo ls k n
  others : ∀ n, ¬ CodeLine ls n ∨ (∀ k < n, ¬ TypeLine ls k) → ∀ k, ¬ BelongsTo ls k n

/-! ### The nearest type line -/

/-- The last type line so far owns a line of code without a type. -/
theorem belongsTo_last {ls : List Text} {n k : Nat} {ks : List Nat} (hcode : CodeLine ls n)
    (hnone : typeOn? (lineAt ls n) = none) (hks : linesBefore (TypeLine ls) n = ks ++ [k]) :
    BelongsTo ls k n := by
  have hk : k ∈ linesBefore (TypeLine ls) n := by simp [hks]
  obtain ⟨hlt, htype⟩ := mem_linesBefore.1 hk
  refine ⟨⟨hcode, hnone⟩, htype, hlt, fun i hi hki htypei => ?_⟩
  have hmem : i ∈ ks ++ [k] := hks ▸ mem_linesBefore.2 ⟨hi, htypei⟩
  have hpairwise := linesBefore_pairwise (TypeLine ls) n
  rw [hks, List.pairwise_append] at hpairwise
  rcases List.mem_append.1 hmem with hi' | hi'
  · have := hpairwise.2.2 i hi' k List.mem_cons_self
    omega
  · have := List.mem_singleton.1 hi'
    omega

/-- A line belongs to one type line at most. -/
theorem BelongsTo.unique {ls : List Text} {n j k : Nat} (hj : BelongsTo ls j n)
    (hk : BelongsTo ls k n) : j = k := by
  obtain ⟨-, htypej, hjn, hnearj⟩ := hj
  obtain ⟨-, htypek, hkn, hneark⟩ := hk
  rcases Nat.lt_trichotomy j k with hlt | heq | hlt
  · exact absurd htypek (hnearj k hkn hlt)
  · exact heq
  · exact absurd htypej (hneark j hjn hlt)

theorem exists_belongsTo {ls : List Text} {n k : Nat} (hcode : CodeLine ls n)
    (hnone : typeOn? (lineAt ls n) = none) (hk : k < n) (htype : TypeLine ls k) :
    ∃ i, BelongsTo ls i n := by
  have hmem : k ∈ linesBefore (TypeLine ls) n := mem_linesBefore.2 ⟨hk, htype⟩
  rcases List.eq_nil_or_concat' (linesBefore (TypeLine ls) n) with hnil | ⟨ks, i, hks⟩
  · rw [hnil] at hmem
    cases hmem
  · exact ⟨i, belongsTo_last hcode hnone hks⟩

/-! ### Lists of types -/

theorem onLast_concat {α : Type} (g : α → α) (xs : List α) (x : α) :
    onLast g (xs ++ [x]) = xs ++ [g x] := by
  induction xs with
  | nil => rfl
  | cons y more ih =>
      cases more with
      | nil => rfl
      | cons z more =>
          change y :: onLast g (z :: more ++ [x]) = y :: (z :: more ++ [g x])
          rw [ih]

theorem forall₂_concat_left {α β : Type} {R : α → β → Prop} {as : List α} {a : α}
    {bs : List β} (h : List.Forall₂ R (as ++ [a]) bs) :
    ∃ bs' b, bs = bs' ++ [b] ∧ List.Forall₂ R as bs' ∧ R a b := by
  induction as generalizing bs with
  | nil =>
      obtain ⟨b, bs', hab, hnil, rfl⟩ := List.forall₂_cons_left_iff.1 h
      obtain rfl := List.forall₂_nil_left_iff.1 hnil
      exact ⟨[], b, rfl, .nil, hab⟩
  | cons c as ih =>
      obtain ⟨b, bs', hcb, hrest, rfl⟩ := List.forall₂_cons_left_iff.1 h
      obtain ⟨front, last, rfl, hfront, hlast⟩ := ih hrest
      exact ⟨b :: front, last, rfl, .cons hcb hfront, hlast⟩

theorem forall₂_concat {α β : Type} {R : α → β → Prop} {as : List α} {a : α} {bs : List β}
    {b : β} (h : List.Forall₂ R as bs) (hab : R a b) : List.Forall₂ R (as ++ [a]) (bs ++ [b]) :=
  List.rel_append h (.cons hab .nil)

/-! ### One more line -/

section step

variable {ls : List Text} {n k : Nat} {c : TypeDecl} {classes : List TypeDecl}

/-- A line that declares no member of a type leaves it as it is. -/
theorem IsTypeOn.succ (h : IsTypeOn ls n k c) (hmethod : ¬ MethodLine ls k n)
    (hfield : ¬ FieldLine ls k n) : IsTypeOn ls (n + 1) k c := by
  refine ⟨h.declared, h.doc, ?_, ?_⟩
  · rw [linesBefore_succ_neg hmethod]
    exact h.methods
  · rw [linesBefore_succ_neg hfield]
    exact h.fields

/-- A line that declares neither a type nor a member leaves all types as they are. -/
theorem Grouped.succ (h : Grouped ls n classes) (htype : ¬ TypeLine ls n)
    (hmethod : ∀ i, ¬ MethodLine ls i n) (hfield : ∀ i, ¬ FieldLine ls i n) :
    Grouped ls (n + 1) classes := by
  rw [Grouped, linesBefore_succ_neg htype]
  exact h.imp fun i d hd => hd.succ (hmethod i) (hfield i)

/-- A type line adds a type without members. -/
theorem Grouped.type (h : Grouped ls n classes) (htype : TypeLine ls n) {kind name : Text}
    {doc : Option Block} (hdeclared : typeOn? (lineAt ls n) = some (.type kind name))
    (hdoc : DocOf ls n doc) : Grouped ls (n + 1) (classes ++ [⟨name, kind, doc, [], []⟩]) := by
  have hnot : ∀ i m, m < n + 1 → i = n ∨ m = n → ¬ BelongsTo ls i m := by
    rintro i m hm hn ⟨⟨-, hnone⟩, -, hlt, -⟩
    rcases hn with rfl | rfl
    · omega
    · rw [hdeclared] at hnone
      cases hnone
  rw [Grouped, linesBefore_succ_pos htype]
  have hothers : ∀ i, ¬ BelongsTo ls i n := fun i => hnot i n (by omega) (.inr rfl)
  refine forall₂_concat (h.imp fun i d hd => ?_) ?_
  · exact hd.succ (fun hmethod => hothers i hmethod.1) fun hfield => hothers i hfield.1
  · refine ⟨hdeclared, hdoc, ?_, ?_⟩
    · rw [linesBefore_eq_nil fun m hm hmethod => hnot n m hm (.inl rfl) hmethod.1]
      exact .nil
    · rw [linesBefore_eq_nil fun m hm hfield => hnot n m hm (.inl rfl) hfield.1]
      exact .nil

/-- A line that belongs to the last type changes this type only. -/
theorem Grouped.member (h : Grouped ls n classes) (hcode : CodeLine ls n)
    (hnone : typeOn? (lineAt ls n) = none) (hne : classes ≠ []) (g : TypeDecl → TypeDecl)
    (hlast : ∀ k c, BelongsTo ls k n → IsTypeOn ls n k c → IsTypeOn ls (n + 1) k (g c)) :
    Grouped ls (n + 1) (onLast g classes) := by
  have htype : ¬ TypeLine ls n := by
    rintro ⟨-, hsome⟩
    rw [hnone] at hsome
    cases hsome
  rcases List.eq_nil_or_concat' (linesBefore (TypeLine ls) n) with hnil | ⟨ks, k, hks⟩
  · rw [Grouped, hnil] at h
    exact absurd (List.forall₂_nil_left_iff.1 h) hne
  · have hk := belongsTo_last hcode hnone hks
    have hpairwise := linesBefore_pairwise (TypeLine ls) n
    rw [Grouped, hks] at h
    obtain ⟨front, c, rfl, hfront, hc⟩ := forall₂_concat_left h
    rw [hks, List.pairwise_append] at hpairwise
    have hothers : ∀ i ∈ ks, ¬ BelongsTo ls i n := by
      intro i hi hbelongs
      have hlt := hpairwise.2.2 i hi k List.mem_cons_self
      rw [hbelongs.unique hk] at hlt
      exact Nat.lt_irrefl k hlt
    rw [Grouped, linesBefore_succ_neg htype, hks, onLast_concat]
    refine forall₂_concat ?_ (hlast k c hk hc)
    refine ((List.forall₂_and_left _ _).2 ⟨hothers, hfront⟩).imp fun i d hd => ?_
    exact hd.2.succ (fun hmethod => hd.1 hmethod.1) fun hfield => hd.1 hfield.1

/-- A line that declares a method of a type adds it behind the methods before. -/
theorem IsTypeOn.method (h : IsTypeOn ls n k c) (hbelongs : BelongsTo ls k n)
    {name returnType : Text} {doc : Option Block}
    (hdeclared : methodOn? (lineAt ls n) = some (.method name returnType))
    (hdoc : DocOf ls n doc) :
    IsTypeOn ls (n + 1) k
      { c with methods := c.methods ++ [Method.make name (lineAt ls n) returnType doc] } := by
  have hmethod : MethodLine ls k n := ⟨hbelongs, by rw [hdeclared]; rfl⟩
  have hfield : ¬ FieldLine ls k n := by
    rintro ⟨-, hnone, -⟩
    rw [hdeclared] at hnone
    cases hnone
  refine ⟨h.declared, h.doc, ?_, ?_⟩
  · rw [linesBefore_succ_pos hmethod]
    exact forall₂_concat h.methods ⟨hdeclared, rfl, hdoc, rfl⟩
  · rw [linesBefore_succ_neg hfield]
    exact h.fields

/-- A line that declares no method but a field of a type adds it behind the fields
before. -/
theorem IsTypeOn.field (h : IsTypeOn ls n k c) (hbelongs : BelongsTo ls k n)
    {name typeText : Text} {doc : Option Block} (hnone : methodOn? (lineAt ls n) = none)
    (hdeclared : fieldOn? (lineAt ls n) = some (.field name typeText)) (hdoc : DocOf ls n doc) :
    IsTypeOn ls (n + 1) k { c with fields := c.fields ++ [⟨name, typeText, doc⟩] } := by
  have hmethod : ¬ MethodLine ls k n := by
    rintro ⟨-, hsome⟩
    rw [hnone] at hsome
    cases hsome
  have hfield : FieldLine ls k n := ⟨hbelongs, hnone, by rw [hdeclared]; rfl⟩
  refine ⟨h.declared, h.doc, ?_, ?_⟩
  · rw [linesBefore_succ_neg hmethod]
    exact h.methods
  · rw [linesBefore_succ_pos hfield]
    exact forall₂_concat h.fields ⟨hdeclared, hdoc⟩

theorem docOf_pending (hcode : CodeLine ls n) : DocOf ls n (progressAt ls n).pending := fun b =>
  pending_iff_reaches (Nat.le_of_lt hcode.1) hcode.2.1 b

theorem declared?_of_type {line kind name : Text} (h : typeOn? line = some (.type kind name)) :
    declared? classes line = some (.type kind name) := by
  rw [declared?, declarationOn?, h]
  exact ite_self _

theorem declared?_of_no_type {line : Text} (h : typeOn? line = none) :
    declared? classes line =
      if classes = [] then none else (methodOn? line).or (fieldOn? line) := by
  rw [declared?, declarationOn?, h, Option.none_or]
  cases classes <;> rfl

/-- A line of code without a type adds a method, else a field, else nothing, to the
last type, if there is one. -/
theorem Grouped.noType (h : Grouped ls n classes) (hcode : CodeLine ls n)
    (htype : typeOn? (lineAt ls n) = none) {doc : Option Block} (hdoc : DocOf ls n doc) :
    Grouped ls (n + 1)
      (((declared? classes (lineAt ls n)).map (record classes (lineAt ls n) doc)).getD
        classes) := by
  have hnotType : ¬ TypeLine ls n := by
    rintro ⟨-, hsome⟩
    rw [htype] at hsome
    cases hsome
  rw [declared?_of_no_type htype]
  by_cases hempty : classes = []
  · rw [if_pos hempty]
    -- no type line stands above, so the line belongs to none
    have hnone : linesBefore (TypeLine ls) n = [] := by
      rw [hempty, Grouped, List.forall₂_nil_right_iff] at h
      exact h
    have hnot : ∀ i, ¬ BelongsTo ls i n := by
      rintro i ⟨-, htypei, hin, -⟩
      have hmem := mem_linesBefore.2 ⟨hin, htypei⟩
      rw [hnone] at hmem
      cases hmem
    exact h.succ hnotType (fun i hi => hnot i hi.1) fun i hi => hnot i hi.1
  · rw [if_neg hempty]
    cases hmethod : methodOn? (lineAt ls n) with
    | some d =>
        obtain ⟨m, -, rfl⟩ := Option.map_eq_some_iff.1 hmethod
        exact h.member hcode htype hempty _ fun k c hbelongs hc => hc.method hbelongs hmethod hdoc
    | none =>
        cases hfield : fieldOn? (lineAt ls n) with
        | some d =>
            obtain ⟨f, -, rfl⟩ := Option.map_eq_some_iff.1 hfield
            exact h.member hcode htype hempty _ fun k c hbelongs hc =>
              hc.field hbelongs hmethod hfield hdoc
        | none =>
            refine h.succ hnotType (fun i hi => ?_) fun i hi => ?_
            · simp [MethodLine, hmethod] at hi
            · simp [FieldLine, hfield] at hi

/-- Consuming a line keeps the types grouped by their lines. -/
theorem Grouped.step (h : Grouped ls n (progressAt ls n).classes) (hn : n < ls.length) :
    Grouped ls (n + 1) (Javadoc.step (progressAt ls n) (lineAt ls n)).classes := by
  rw [(step_consumed _ _).classes_eq]
  by_cases hcode : CodeLine ls n
  · have hdoc := docOf_pending hcode
    have hfound : found? (progressAt ls n) (lineAt ls n) =
        declared? (progressAt ls n).classes (lineAt ls n) :=
      if_pos ⟨hcode.2.1, roleOf_eq_other_iff.2 hcode.2.2⟩
    rw [hfound]
    cases htype : typeOn? (lineAt ls n) with
    | some d =>
        obtain ⟨kind, name, rfl⟩ := typeOn?_eq_some htype
        have hline : TypeLine ls n := ⟨hcode, by rw [htype]; rfl⟩
        rw [declared?_of_type htype]
        exact h.type hline htype hdoc
    | none => exact h.noType hcode htype hdoc
  · have hfound : found? (progressAt ls n) (lineAt ls n) = none :=
      if_neg fun hmet => hcode ⟨hn, hmet.1, roleOf_eq_other_iff.1 hmet.2⟩
    rw [hfound]
    exact h.succ (fun hline => hcode hline.1) (fun i hi => hcode hi.1.1.1) fun i hi =>
      hcode hi.1.1.1

end step

/-- The types found so far are the ones that the lines consumed so far describe. -/
theorem grouped_progressAt {ls : List Text} {n : Nat} (hn : n ≤ ls.length) :
    Grouped ls n (progressAt ls n).classes := by
  induction n with
  | zero => exact .nil
  | succ n ih =>
      rw [progressAt_succ hn]
      exact (ih (Nat.le_of_succ_le hn)).step hn

/-! ### The description fits one list of types only -/

theorem DocOf.unique {ls : List Text} {n : Nat} {a b : Option Block} (ha : DocOf ls n a)
    (hb : DocOf ls n b) : a = b :=
  Option.ext fun x => (ha x).trans (hb x).symm

theorem isMethodOn_unique (ls : List Text) : Relator.RightUnique (IsMethodOn ls) := by
  rintro n ⟨name, signature, returnType, doc, parameters⟩
    ⟨name', signature', returnType', doc', parameters'⟩ h h'
  obtain ⟨rfl, rfl⟩ := Declaration.method.inj (Option.some.inj (h.declared.symm.trans h'.declared))
  obtain rfl : signature = signature' := h.signature.trans h'.signature.symm
  obtain rfl : doc = doc' := h.doc.unique h'.doc
  obtain rfl : parameters = parameters' := h.parameters.trans h'.parameters.symm
  rfl

theorem isFieldOn_unique (ls : List Text) : Relator.RightUnique (IsFieldOn ls) := by
  rintro n ⟨name, typeText, doc⟩ ⟨name', typeText', doc'⟩ h h'
  obtain ⟨rfl, rfl⟩ := Declaration.field.inj (Option.some.inj (h.declared.symm.trans h'.declared))
  obtain rfl : doc = doc' := h.doc.unique h'.doc
  rfl

theorem isTypeOn_unique (ls : List Text) (n : Nat) : Relator.RightUnique (IsTypeOn ls n) := by
  rintro k ⟨name, kind, doc, fields, methods⟩ ⟨name', kind', doc', fields', methods'⟩ h h'
  obtain ⟨rfl, rfl⟩ := Declaration.type.inj (Option.some.inj (h.declared.symm.trans h'.declared))
  obtain rfl : doc = doc' := h.doc.unique h'.doc
  obtain rfl : methods = methods' :=
    List.right_unique_forall₂' (isMethodOn_unique ls) h.methods h'.methods
  obtain rfl : fields = fields' :=
    List.right_unique_forall₂' (isFieldOn_unique ls) h.fields h'.fields
  rfl

/-! ### Whole texts -/

theorem grouping_classesOf (content : Text) :
    Grouping (trimmedLines content) (classesOf content) := by
  refine ⟨?_, fun n hcode hnone htype => ?_, fun n hnot k hbelongs => ?_⟩
  · rw [classesOf_eq]
    exact grouped_progressAt (Nat.le_refl _)
  · obtain ⟨k, hk, htypek⟩ := htype
    obtain ⟨i, hi⟩ := exists_belongsTo hcode hnone hk htypek
    exact ⟨i, hi, fun j hj => hj.unique hi⟩
  · obtain ⟨⟨hcode, -⟩, htype, hlt, -⟩ := hbelongs
    rcases hnot with hnot | hnot
    · exact hnot hcode
    · exact hnot k hlt htype

/-- The file of a unit holds exactly the types and members that the lines of its text
describe, each type with the members on the lines of code up to the next type. -/
theorem scan_eq_iff_grouping (u : SourceUnit) (file : FileDoc) :
    scan u = file ↔ (file.name = u.name ∧ file.path = u.path ∧ file.language = language) ∧
      Grouping (trimmedLines u.content) file.classes := by
  constructor
  · rintro rfl
    exact ⟨⟨rfl, rfl, rfl⟩, grouping_classesOf u.content⟩
  · obtain ⟨name, path, language, classes⟩ := file
    rintro ⟨⟨rfl, rfl, rfl⟩, hgrouping⟩
    have hclasses : classesOf u.content = classes :=
      List.right_unique_forall₂' (isTypeOn_unique _ _) (grouping_classesOf u.content).types
        hgrouping.types
    rw [scan, hclasses]

end DocPress.Javadoc
