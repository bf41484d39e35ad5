import DocPress.Proofs.Html.PageName
import DocPress.Proofs.Text.Lines
import DocPress.Storage.Disk
import Mathlib.Data.Char
import Mathlib.Data.List.Lex
import Mathlib.Data.List.Pairwise

/-!
# Two orders of paths

Paths can be put in order name by name, or by their texts with a separator between the
names.  Both are lexicographic orders (`le_eq_true_iff`, `placeLe_eq_true_iff`), and they
are not the same: where one path goes on below a directory and another has, in its place,
a longer name, the separator is compared with a character of that name.  Some characters
come before the separator, such as the blank, the hyphen and the dot.

`Tangled` says that two paths meet in this way, and `tangled_iff` that these are all the
pairs on which the two orders disagree.  So paths in order name by name are in order by
their texts exactly if no two of them are tangled (`pairwise_pathText_iff`).
-/

namespace DocPress

open Text

/-- The text of a path below a root. -/
def pathText (names : Place) : Text := join ['/'] names

/-- A name that a file can have: it stands between separators and does not stay in place. -/
structure IsFileName (name : Text) : Prop where
  ne_nil : name ≠ []
  ne_dot : name ≠ ['.']
  no_separator : '/' ∉ name

instance (name : Text) : Decidable (IsFileName name) :=
  decidable_of_iff (name ≠ [] ∧ name ≠ ['.'] ∧ '/' ∉ name)
    ⟨fun h => ⟨h.1, h.2.1, h.2.2⟩, fun h => ⟨h.ne_nil, h.ne_dot, h.no_separator⟩⟩

/-- One path goes on below a directory beside which the other has a longer name that
continues with a character before the separator. -/
inductive Tangled : Place → Place → Prop where
  | beside {x next y : Text} {c : Char} {as bs : Place} (h : c < '/') :
      Tangled (x :: next :: as) ((x ++ c :: y) :: bs)
  | inside {x : Text} {as bs : Place} (h : Tangled as bs) : Tangled (x :: as) (x :: bs)

/-! ### Both orders are lexicographic -/

theorem le_eq_true_iff {a b : Text} : Text.le a b = true ↔ ¬ b < a := by
  induction a generalizing b with
  | nil => simp [Text.le]
  | cons c a ih =>
      cases b with
      | nil => simp [Text.le]
      | cons d b =>
          rw [Text.le, List.cons_lt_cons_iff, Bool.or_eq_true, Bool.and_eq_true, ih]
          simp only [decide_eq_true_eq, beq_iff_eq, not_or, not_and]
          constructor
          · rintro (hlt | ⟨rfl, hrest⟩)
            · exact ⟨lt_asymm hlt, fun heq => absurd hlt (by rw [heq]; exact lt_irrefl _)⟩
            · exact ⟨lt_irrefl _, fun _ => hrest⟩
          · rintro ⟨hnot, hrest⟩
            rcases lt_trichotomy c d with hlt | heq | hlt
            · exact .inl hlt
            · exact .inr ⟨heq, hrest heq.symm⟩
            · exact absurd hlt hnot

theorem placeLe_eq_true_iff {a b : Place} : Disk.placeLe a b = true ↔ ¬ b < a := by
  induction a generalizing b with
  | nil => simp [Disk.placeLe]
  | cons x a ih =>
      cases b with
      | nil => simp [Disk.placeLe]
      | cons y b =>
          rw [Disk.placeLe, List.cons_lt_cons_iff]
          by_cases heq : x = y
          · rw [if_pos heq, ih, heq]
            simp
          · rw [if_neg heq, le_eq_true_iff]
            simp [Ne.symm heq]

section total

variable {α : Type} {le : α → α → Bool} {lt : α → α → Prop} [IsStrictTotalOrder α lt]

theorem le_trans_of_iff (h : ∀ a b, le a b = true ↔ ¬ lt b a) (a b c : α)
    (hab : le a b = true) (hbc : le b c = true) : le a c = true := by
  rw [h] at *
  intro hca
  rcases trichotomous_of lt a b with hlt | rfl | hlt
  · exact hbc (trans_of lt hca hlt)
  · exact hbc hca
  · exact hab hlt

theorem le_total_of_iff (h : ∀ a b, le a b = true ↔ ¬ lt b a) (a b : α) :
    (le a b || le b a) = true := by
  rw [Bool.or_eq_true, h, h, ← not_and_or]
  rintro ⟨hba, hab⟩
  exact asymm_of lt hba hab

end total

/-! ### Texts of paths come apart again -/

theorem pathText_cons {x : Text} {as : Place} (h : as ≠ []) :
    pathText (x :: as) = x ++ '/' :: pathText as :=
  join_cons h

theorem pathText_singleton (x : Text) : pathText [x] = x := by
  simp [pathText, join]

/-- The text of a path begins with the first name, and a separator follows if there is
another name. -/
theorem exists_pathText_cons (x : Text) (as : Place) :
    ∃ rest, pathText (x :: as) = x ++ rest ∧
      (as = [] ∧ rest = [] ∨ as ≠ [] ∧ rest = '/' :: pathText as) := by
  by_cases has : as = []
  · exact ⟨[], by rw [has, pathText_singleton, List.append_nil], .inl ⟨has, rfl⟩⟩
  · exact ⟨_, pathText_cons has, .inr ⟨has, rfl⟩⟩

theorem splitAt_pathText {names : Place} (hne : names ≠ []) (h : ∀ n ∈ names, '/' ∉ n) :
    splitAt '/' (pathText names) = names := by
  rw [pathText, splitAt_join_of_notMem hne h]

/-- The text of a path is read back as the names of the path. -/
theorem ofText_pathText {names : Place} (hne : names ≠ []) (h : ∀ n ∈ names, IsFileName n) :
    Path.ofText (pathText names) = ⟨[], names⟩ := by
  have hroot : Path.rootOf (pathText names) = [] := by
    obtain ⟨x, as, rfl⟩ := List.exists_cons_of_ne_nil hne
    have hx := h x List.mem_cons_self
    obtain ⟨c, x, rfl⟩ := List.exists_cons_of_ne_nil hx.ne_nil
    have hc : c ≠ '/' := fun heq => hx.no_separator (heq ▸ List.mem_cons_self)
    obtain ⟨rest, hrest, -⟩ := exists_pathText_cons (c :: x) as
    simp [Path.rootOf, hrest, hc]
  have hkept : names.filter (fun n => !n.isEmpty && n != ['.']) = names := by
    refine List.filter_eq_self.2 fun n hn => ?_
    simp [(h n hn).ne_nil, (h n hn).ne_dot]
  rw [Path.ofText, hroot, splitAt_pathText hne fun n hn => (h n hn).no_separator, hkept]

theorem pathText_ne_nil {names : Place} (hne : names ≠ []) (h : ∀ n ∈ names, IsFileName n) :
    pathText names ≠ [] := by
  obtain ⟨x, as, rfl⟩ := List.exists_cons_of_ne_nil hne
  obtain ⟨rest, hrest, -⟩ := exists_pathText_cons x as
  rw [hrest]
  simp [(h x List.mem_cons_self).ne_nil]

theorem toText_pathText {names : Place} (hne : names ≠ []) (h : ∀ n ∈ names, IsFileName n) :
    (Path.ofText (pathText names)).toText = pathText names := by
  rw [ofText_pathText hne h, Path.toText]
  split
  · rename_i hnil
    exact absurd hnil (pathText_ne_nil hne h)
  · rfl

theorem pathText_inj {a b : Place} (ha : a ≠ [] ∧ ∀ n ∈ a, IsFileName n)
    (hb : b ≠ [] ∧ ∀ n ∈ b, IsFileName n) (h : pathText a = pathText b) : a = b := by
  have hnames := congrArg (splitAt '/') h
  rwa [splitAt_pathText ha.1 fun n hn => (ha.2 n hn).no_separator,
    splitAt_pathText hb.1 fun n hn => (hb.2 n hn).no_separator] at hnames

/-! ### Where the orders disagree -/

theorem Tangled.ne_nil {a b : Place} (h : Tangled a b) : a ≠ [] ∧ b ≠ [] := by
  cases h <;> simp

theorem Tangled.lt {a b : Place} (h : Tangled a b) : a < b := by
  induction h with
  | @beside x next y c as bs hc =>
      have hlt : x < x ++ c :: y := by
        have h : x ++ [] < x ++ c :: y := List.append_left_lt (List.nil_lt_cons c y)
        rwa [List.append_nil] at h
      exact List.cons_lt_cons_iff.2 (.inl hlt)
  | inside _ ih => exact List.cons_lt_cons_iff.2 (.inr ⟨rfl, ih⟩)

theorem Tangled.pathText_lt {a b : Place} (h : Tangled a b) : pathText b < pathText a := by
  induction h with
  | @beside x next y c as bs hc =>
      obtain ⟨rest, hb, -⟩ := exists_pathText_cons (x ++ c :: y) bs
      rw [hb, pathText_cons (by simp), List.append_assoc, List.cons_append]
      exact List.append_left_lt (List.cons_lt_cons_iff.2 (.inl hc))
  | inside h ih =>
      rw [pathText_cons h.ne_nil.1, pathText_cons h.ne_nil.2]
      exact List.append_left_lt (List.cons_lt_cons_iff.2 (.inr ⟨rfl, ih⟩))

theorem lt_of_append_lt {x r s : Text} (h : x ++ s < x ++ r) : s < r := by
  induction x with
  | nil => exact h
  | cons c x ih => exact ih (by simpa using h)

/-- A text that comes before another, but not with something behind both, is a beginning
of it, and what is behind it is compared with the rest of the other. -/
theorem exists_append_of_lt {x y r s : Text} (hlt : x < y) (hrev : y ++ s < x ++ r) :
    ∃ c z, y = x ++ c :: z ∧ c :: (z ++ s) < r := by
  induction x generalizing y with
  | nil =>
      cases y with
      | nil => exact absurd hlt (lt_irrefl _)
      | cons c z => exact ⟨c, z, rfl, hrev⟩
  | cons p x ih =>
      cases y with
      | nil => exact absurd hlt (by simp)
      | cons q y =>
          rw [List.cons_lt_cons_iff] at hlt
          rw [List.cons_append, List.cons_append, List.cons_lt_cons_iff] at hrev
          rcases hlt with hpq | ⟨rfl, hlt⟩
          · rcases hrev with hqp | ⟨rfl, -⟩
            · exact absurd hqp (lt_asymm hpq)
            · exact absurd hpq (lt_irrefl _)
          · rcases hrev with hpp | ⟨-, hrev⟩
            · exact absurd hpp (lt_irrefl _)
            · obtain ⟨c, z, rfl, hrest⟩ := ih hlt hrev
              exact ⟨c, z, rfl, hrest⟩

/-- Two paths are tangled exactly if the order name by name and the order of their texts
disagree about them. -/
theorem tangled_iff {a b : Place} (hb : ∀ name ∈ b, '/' ∉ name) :
    Tangled a b ↔ a < b ∧ pathText b < pathText a := by
  refine ⟨fun h => ⟨h.lt, h.pathText_lt⟩, ?_⟩
  rintro ⟨hlt, hrev⟩
  induction a generalizing b with
  | nil => exact absurd hrev (by simp [pathText, join])
  | cons x as ih =>
      cases b with
      | nil => exact absurd hlt (by simp)
      | cons y bs =>
          obtain ⟨r, hr, has⟩ := exists_pathText_cons x as
          obtain ⟨s, hs, hbs⟩ := exists_pathText_cons y bs
          rw [hr, hs] at hrev
          rcases List.cons_lt_cons_iff.1 hlt with hxy | ⟨rfl, hrest⟩
          · -- the first names differ: the longer one is compared with the separator
            obtain ⟨c, z, rfl, hc⟩ := exists_append_of_lt hxy hrev
            rcases has with ⟨-, rfl⟩ | ⟨hne, rfl⟩
            · exact absurd hc (by simp)
            · obtain ⟨next, as, rfl⟩ := List.exists_cons_of_ne_nil hne
              refine .beside ?_
              rcases List.cons_lt_cons_iff.1 hc with hlt | ⟨rfl, -⟩
              · exact hlt
              · exact absurd (by simp) (hb _ List.mem_cons_self)
          · -- the first names are the same: the rest of the paths decides
            replace hrev := lt_of_append_lt hrev
            rcases hbs with ⟨rfl, -⟩ | ⟨-, rfl⟩
            · exact absurd hrest (by simp)
            · rcases has with ⟨-, rfl⟩ | ⟨-, rfl⟩
              · exact absurd hrev (by simp)
              · refine .inside (ih (fun n hn => hb n (List.mem_cons_of_mem _ hn)) hrest ?_)
                simpa using hrev

/-- Paths in order name by name are in order by their texts too exactly if no two of them
are tangled. -/
theorem pairwise_pathText_iff {ps : List Place} (hslash : ∀ p ∈ ps, ∀ n ∈ p, '/' ∉ n)
    (hps : ps.Pairwise fun a b => Disk.placeLe a b) :
    (ps.Pairwise fun a b => Text.le (pathText a) (pathText b)) ↔
      ∀ a ∈ ps, ∀ b ∈ ps, ¬ Tangled a b := by
  constructor
  · -- of two paths one comes first in both orders, so neither is tangled with the other
    intro htexts a ha b hb
    have hnone : ps.Pairwise fun a b => ¬ Tangled a b ∧ ¬ Tangled b a := by
      refine (hps.and htexts).imp fun {a b} hab => ⟨fun h => ?_, fun h => ?_⟩
      · exact absurd h.pathText_lt (le_eq_true_iff.1 hab.2)
      · exact absurd h.lt (placeLe_eq_true_iff.1 hab.1)
    have hsymm : Std.Symm fun a b => ¬ Tangled a b ∧ ¬ Tangled b a := ⟨fun _ _ h => h.symm⟩
    have hself : ∀ c ∈ ps, ¬ Tangled c c ∧ ¬ Tangled c c := fun c _ =>
      ⟨fun h => lt_irrefl c h.lt, fun h => lt_irrefl c h.lt⟩
    exact (hnone.forall_of_forall hself ha hb).1
  · intro hnone
    refine hps.imp_of_mem fun {a b} ha hb hab => ?_
    rw [placeLe_eq_true_iff] at hab
    rw [le_eq_true_iff]
    intro hrev
    have hne : a ≠ b := fun heq => absurd hrev (by rw [heq]; exact lt_irrefl _)
    refine hnone a ha b hb ((tangled_iff (hslash b hb)).2 ⟨?_, hrev⟩)
    exact lt_of_le_of_ne (not_lt.1 hab) hne

end DocPress
