import DocPress.Javadoc.Scan
import DocPress.Proofs.Text.Trim

/-!
# What one line does to a scan

`step_consumed` says once what consuming a line can do, with the condition on the
place and on the line under which each case is taken.  Facts about the scan are
then proved by cases on `Consumed` and never by opening `step`.
-/

namespace DocPress.Javadoc

open Text

/-- A line that ends with the closing mark of a comment. -/
def Closes (line : Text) : Prop := ['*', '/'] <:+ line

/-- A line that opens a documentation block when it is met in code. -/
def OpensBlock (line : Text) : Prop :=
  ['/', '*', '*'] <+: line ∧ ¬ ['/', '*', '*', '/'] <+: line

/-- A line that is or opens a comment without documentation when it is met in
code. -/
def IsPlainComment (line : Text) : Prop :=
  ['/', '/'] <+: line ∨ (['/', '*'] <+: line ∧ ¬ OpensBlock line)

instance : DecidablePred Closes := fun line => inferInstanceAs (Decidable (['*', '/'] <:+ line))

instance : DecidablePred OpensBlock := fun line =>
  inferInstanceAs (Decidable (['/', '*', '*'] <+: line ∧ ¬ ['/', '*', '*', '/'] <+: line))

/-- A text without the closing mark at its end, if it has one. -/
def unclosed (t : Text) : Text := (before? ['*', '/'] t).getD t

/-- What a line of code declares.  Members are only recognised once there is a
type they can belong to. -/
def declared? (classes : List TypeDecl) (line : Text) : Option Declaration :=
  if classes.isEmpty then typeOn? line else declarationOn? line

/-- Add what a line declares to the types found so far. -/
def record (classes : List TypeDecl) (line : Text) (doc : Option Block) :
    Declaration → List TypeDecl
  | .type kind name => classes ++ [⟨name, kind, doc, [], []⟩]
  | .method name returnType =>
      onLast (fun c => { c with methods := c.methods ++ [Method.make name line returnType doc] })
        classes
  | .field name typeText =>
      onLast (fun c => { c with fields := c.fields ++ [⟨name, typeText, doc⟩] }) classes

/-- A line of code that is neither comment nor separator. -/
structure IsCode (line : Text) : Prop where
  notBlock : ¬ OpensBlock line
  notComment : ¬ IsPlainComment line
  notSeparator : isSeparator line = false

/-- What consuming a line can do to a scan. -/
inductive Consumed (p : Progress) (line : Text) : Progress → Prop where
  | blockLine {own : List Text} (place : p.place = .docBlock own) (closed : ¬ Closes line) :
      Consumed p line { p with place := .docBlock (own ++ [Comment.stripStar line]) }
  | blockEnd {own : List Text} (place : p.place = .docBlock own) (closed : Closes line) :
      Consumed p line { p with
        place := .code
        pending := some (blockOf (own ++ [Comment.stripStar (unclosed line)])) }
  | blockStart (place : p.place = .code) (opens : OpensBlock line)
      (closed : ¬ Closes (line.drop 3)) :
      Consumed p line { p with place := .docBlock [trim (line.drop 3)] }
  | blockWhole (place : p.place = .code) (opens : OpensBlock line)
      (closed : Closes (line.drop 3)) :
      Consumed p line { p with pending := some (blockOf [trim (unclosed (line.drop 3))]) }
  | comment (place : p.place = .code ∧ IsPlainComment line ∨ p.place = .plainComment)
      {next : Place} (hnext : next = .code ∨ next = .plainComment) :
      Consumed p line { p with place := next }
  | separator (place : p.place = .code) (hblock : ¬ OpensBlock line)
      (hcomment : ¬ IsPlainComment line) (hseparator : isSeparator line = true) :
      Consumed p line { p with pending := none }
  | unrecognised (place : p.place = .code) (code : IsCode line)
      (hnone : declared? p.classes line = none) : Consumed p line { p with pending := none }
  | declaration (place : p.place = .code) (code : IsCode line) {d : Declaration}
      (hsome : declared? p.classes line = some d) :
      Consumed p line { p with pending := none, classes := record p.classes line p.pending d }

/-! ### Closing marks -/

theorem unclosed_append (t : Text) : unclosed (t ++ ['*', '/']) = t := by
  rw [unclosed, before?_append, Option.getD_some]

theorem unclosed_eq_self {t : Text} (h : ¬ Closes t) : unclosed t = t := by
  rw [unclosed, before?_eq_none h, Option.getD_none]

theorem before?_of_closes {t : Text} (h : Closes t) : before? ['*', '/'] t = some (unclosed t) := by
  obtain ⟨u, rfl⟩ := h
  rw [before?_append, unclosed_append]

/-! ### The role of a line of code -/

theorem roleOf_of_opensBlock {line : Text} (h : OpensBlock line) :
    roleOf line = match before? ['*', '/'] (line.drop 3) with
      | some text => .docLine (trim text)
      | none => .docOpening (trim (line.drop 3)) := by
  obtain ⟨⟨rest, rfl⟩, hnot⟩ := h
  have hhead : ¬ rest.head? = some '/' := by
    intro hslash
    obtain ⟨tail, rfl⟩ := List.head?_eq_some_iff.1 hslash
    exact hnot ⟨tail, rfl⟩
  change roleOf ('/' :: '*' :: '*' :: rest) = _
  rw [roleOf, if_neg hhead]
  rfl

theorem roleOf_of_isPlainComment {line : Text} (h : IsPlainComment line) :
    roleOf line = .comment ∨ roleOf line = .commentOpening := by
  rcases h with ⟨rest, rfl⟩ | ⟨⟨rest, rfl⟩, hnot⟩
  · exact .inl rfl
  · rw [roleOf.eq_def]
    split
    · next tail heq =>
        -- two stars: only an immediate slash keeps the line from opening a block
        have hhead : tail.head? = some '/' := by
          refine Decidable.byContradiction fun hne => hnot ⟨⟨tail, heq.symm⟩, ?_⟩
          rintro ⟨more, hmore⟩
          rw [heq] at hmore
          simp only [List.cons_append, List.nil_append, List.cons.injEq, true_and] at hmore
          exact hne (hmore ▸ rfl)
        rw [if_pos hhead]
        split
        · exact .inl rfl
        · exact .inr rfl
    · split
      · exact .inl rfl
      · exact .inr rfl
    · exact .inl rfl
    · next hnone _ => exact absurd rfl (hnone rest)

/-- The slash of an opening mark does not complete a closing one. -/
theorem closes_opening_iff {s : Text} : Closes ('/' :: '*' :: s) ↔ Closes s ∨ s = ['/'] := by
  rw [Closes, List.suffix_cons_iff, List.suffix_cons_iff]
  simp [Closes, eq_comm, or_comm]

/-- A comment without documentation ends on the line that opens it, if what follows
the opening mark has the closing one at its end. -/
theorem roleOf_of_plainOpening {s : Text} (h : ¬ OpensBlock ('/' :: '*' :: s)) :
    roleOf ('/' :: '*' :: s) = if Closes s then .comment else .commentOpening := by
  have hends : ∀ line : Text, roleOf.endsComment line = decide (Closes line) := fun line => by
    rw [roleOf.endsComment, Bool.eq_iff_iff, List.isSuffixOf_iff_suffix, decide_eq_true_iff, Closes]
  rw [roleOf.eq_def]
  split
  · next rest heq =>
      obtain rfl : s = '*' :: rest := by simpa using heq
      have hhead : rest.head? = some '/' := by
        refine Decidable.byContradiction fun hne => h ⟨⟨rest, rfl⟩, ?_⟩
        rintro ⟨more, hmore⟩
        obtain rfl : '/' :: more = rest := by simpa using hmore
        exact hne rfl
      rw [if_pos hhead, hends]
      simp [closes_opening_iff]
  · next rest hstars heq =>
      obtain rfl : s = rest := by simpa using heq
      have hclosed : (decide (Closes ('/' :: '*' :: s)) && s != ['/']) = decide (Closes s) := by
        by_cases hslash : s = ['/']
        · rw [hslash]
          decide
        · simp [closes_opening_iff, hslash]
      rw [hends, hclosed]
      simp
  · next rest heq => simp at heq
  · next hnone _ => exact absurd rfl (hnone s)

theorem roleOf_of_code {line : Text} (hblock : ¬ OpensBlock line)
    (hcomment : ¬ IsPlainComment line) :
    roleOf line = if isSeparator line then .separator else .other := by
  have hslash : ∀ rest, line ≠ '/' :: '/' :: rest := fun rest heq =>
    hcomment (.inl ⟨rest, heq.symm⟩)
  have hstar : ∀ rest, line ≠ '/' :: '*' :: rest := fun rest heq =>
    hcomment (.inr ⟨⟨rest, heq.symm⟩, hblock⟩)
  rw [roleOf.eq_def]
  split
  · next rest => exact absurd rfl (hstar ('*' :: rest))
  · next rest _ => exact absurd rfl (hstar rest)
  · next rest => exact absurd rfl (hslash rest)
  · rfl

theorem IsPlainComment.not_opensBlock {line : Text} (h : IsPlainComment line) :
    ¬ OpensBlock line := by
  rcases h with ⟨rest, rfl⟩ | ⟨-, hnot⟩
  · rintro ⟨⟨more, hmore⟩, -⟩
    simp at hmore
  · exact hnot

theorem isSeparator_of_isPlainComment {line : Text} (h : IsPlainComment line) :
    isSeparator line = false := by
  rcases h with ⟨rest, rfl⟩ | ⟨⟨rest, rfl⟩, -⟩ <;> rfl

/-! ### Declarations -/

theorem declarationOn?_of_declared? {classes : List TypeDecl} {line : Text} {d : Declaration}
    (h : declared? classes line = some d) : declarationOn? line = some d := by
  rw [declared?] at h
  split at h
  · rw [declarationOn?, h]
    rfl
  · exact h

/-- An answer for a text is one for an end of it. -/
theorem exists_of_leftmost? {α : Type} {here? : Text → Option α} {t : Text} {a : α}
    (h : leftmost? here? t = some a) : ∃ u v, t = u ++ v ∧ here? v = some a := by
  induction t with
  | nil => exact ⟨[], [], rfl, h⟩
  | cons c rest ih =>
      rw [leftmost?, Option.or_eq_some_iff] at h
      rcases h with h | ⟨-, h⟩
      · exact ⟨[], c :: rest, rfl, h⟩
      · obtain ⟨u, v, rfl, hv⟩ := ih h
        exact ⟨c :: u, v, rfl, hv⟩

theorem typeOn?_eq_some {line : Text} {d : Declaration} (h : typeOn? line = some d) :
    ∃ kind name, d = .type kind name := by
  obtain ⟨u, v, -, hv⟩ := exists_of_leftmost? h
  obtain ⟨⟨keyword, kind⟩, -, hkeyword⟩ := List.exists_of_findSome?_eq_some hv
  simp only [Option.bind_eq_bind, Option.bind_eq_some_iff, Option.some.injEq] at hkeyword
  obtain ⟨-, -, -, -, ⟨name, -⟩, -, rfl⟩ := hkeyword
  exact ⟨kind, name, rfl⟩

/-- A line of code that is no comment either declares something or drops the
waiting block. -/
theorem declare_eq (p : Progress) (line : Text) :
    declare p line = { p with
      pending := none
      classes := ((declared? p.classes line).map (record p.classes line p.pending)).getD
        p.classes } := by
  rw [declare, declared?, declarationOn?]
  cases htype : typeOn? line with
  | some d =>
      obtain ⟨kind, name, rfl⟩ := typeOn?_eq_some htype
      have hsame : (if p.classes.isEmpty then some (Declaration.type kind name)
          else ((some (.type kind name)).or (methodOn? line)).or (fieldOn? line)) =
          some (.type kind name) := ite_self _
      rw [hsame]
      rfl
  | none =>
      dsimp only
      split
      · rfl
      · rw [Option.none_or]
        cases hmethod : methodOn? line with
        | some d =>
            obtain ⟨m, -, rfl⟩ := Option.map_eq_some_iff.1 hmethod
            rfl
        | none =>
            rw [Option.none_or]
            cases hfield : fieldOn? line with
            | some d =>
                obtain ⟨f, -, rfl⟩ := Option.map_eq_some_iff.1 hfield
                rfl
            | none => rfl

/-! ### The step -/

theorem step_blockLine {p : Progress} {line : Text} {own : List Text}
    (hplace : p.place = .docBlock own) (hclosed : ¬ Closes line) :
    step p line = { p with place := .docBlock (own ++ [Comment.stripStar line]) } := by
  rw [step, hplace]
  dsimp only
  rw [before?_eq_none hclosed]

theorem step_blockEnd {p : Progress} {line : Text} {own : List Text}
    (hplace : p.place = .docBlock own) (hclosed : Closes line) :
    step p line = { p with
      place := .code
      pending := some (blockOf (own ++ [Comment.stripStar (unclosed line)])) } := by
  rw [step, hplace]
  dsimp only
  rw [before?_of_closes hclosed]

theorem step_blockStart {p : Progress} {line : Text} (hplace : p.place = .code)
    (hopens : OpensBlock line) (hclosed : ¬ Closes (line.drop 3)) :
    step p line = { p with place := .docBlock [trim (line.drop 3)] } := by
  rw [step, hplace]
  dsimp only
  rw [roleOf_of_opensBlock hopens, before?_eq_none hclosed]

theorem step_blockWhole {p : Progress} {line : Text} (hplace : p.place = .code)
    (hopens : OpensBlock line) (hclosed : Closes (line.drop 3)) :
    step p line = { p with pending := some (blockOf [trim (unclosed (line.drop 3))]) } := by
  rw [step, hplace]
  dsimp only
  rw [roleOf_of_opensBlock hopens, before?_of_closes hclosed]

theorem step_code {p : Progress} {line : Text} (hplace : p.place = .code) (hcode : IsCode line) :
    step p line = { p with
      pending := none
      classes := ((declared? p.classes line).map (record p.classes line p.pending)).getD
        p.classes } := by
  rw [step, hplace]
  dsimp only
  rw [roleOf_of_code hcode.notBlock hcode.notComment, hcode.notSeparator,
    if_neg Bool.false_ne_true]
  dsimp only
  rw [declare_eq, hplace]

/-- A comment without documentation changes the place and nothing else. -/
theorem step_comment {p : Progress} {line : Text}
    (h : p.place = .code ∧ IsPlainComment line ∨ p.place = .plainComment) :
    ∃ next, (next = .code ∨ next = .plainComment) ∧ step p line = { p with place := next } := by
  rw [step]
  rcases h with ⟨hplace, hcomment⟩ | hplace
  · rw [hplace]
    dsimp only
    rcases roleOf_of_isPlainComment hcomment with hrole | hrole
    · rw [hrole]
      exact ⟨p.place, .inl hplace, rfl⟩
    · rw [hrole]
      exact ⟨.plainComment, .inr rfl, rfl⟩
  · rw [hplace]
    dsimp only
    split
    · exact ⟨.code, .inl rfl, rfl⟩
    · exact ⟨p.place, .inr hplace, rfl⟩

theorem step_lineComment {p : Progress} {line : Text} (hplace : p.place = .code)
    (hline : ['/', '/'] <+: line) : step p line = p := by
  obtain ⟨rest, rfl⟩ := hline
  rw [step, hplace]
  rfl

/-- A comment without documentation is closed on the line that opens it only by a mark
that shares no character with the opening one. -/
theorem step_plainOpening {p : Progress} {s : Text} (hplace : p.place = .code)
    (hopens : ¬ OpensBlock ('/' :: '*' :: s)) :
    step p ('/' :: '*' :: s) = if Closes s then p else { p with place := .plainComment } := by
  rw [step, hplace]
  dsimp only
  rw [roleOf_of_plainOpening hopens]
  by_cases hclosed : Closes s
  · rw [if_pos hclosed, if_pos hclosed]
  · rw [if_neg hclosed, if_neg hclosed]

theorem step_plainLine {p : Progress} {line : Text} (hplace : p.place = .plainComment)
    (hclosed : ¬ Closes line) : step p line = p := by
  rw [step, hplace]
  exact if_neg fun hsuffix => hclosed (List.isSuffixOf_iff_suffix.1 hsuffix)

theorem step_plainEnd {p : Progress} {line : Text} (hplace : p.place = .plainComment)
    (hclosed : Closes line) : step p line = { p with place := .code } := by
  rw [step, hplace]
  exact if_pos (List.isSuffixOf_iff_suffix.2 hclosed)

theorem step_separator {p : Progress} {line : Text} (hplace : p.place = .code)
    (hblock : ¬ OpensBlock line) (hcomment : ¬ IsPlainComment line)
    (hseparator : isSeparator line = true) : step p line = { p with pending := none } := by
  rw [step, hplace]
  dsimp only
  rw [roleOf_of_code hblock hcomment, hseparator]
  rfl

/-- Consuming a line does one of the things that `Consumed` lists. -/
theorem step_consumed (p : Progress) (line : Text) : Consumed p line (step p line) := by
  have hplain : p.place = .code ∧ IsPlainComment line ∨ p.place = .plainComment →
      Consumed p line (step p line) := by
    intro h
    obtain ⟨next, hnext, heq⟩ := step_comment h
    exact heq ▸ .comment h hnext
  cases hplace : p.place with
  | docBlock own =>
      by_cases hclosed : Closes line
      · exact step_blockEnd hplace hclosed ▸ .blockEnd hplace hclosed
      · exact step_blockLine hplace hclosed ▸ .blockLine hplace hclosed
  | plainComment => exact hplain (.inr hplace)
  | code =>
      by_cases hblock : OpensBlock line
      · by_cases hclosed : Closes (line.drop 3)
        · exact step_blockWhole hplace hblock hclosed ▸ .blockWhole hplace hblock hclosed
        · exact step_blockStart hplace hblock hclosed ▸ .blockStart hplace hblock hclosed
      · by_cases hcomment : IsPlainComment line
        · exact hplain (.inl ⟨hplace, hcomment⟩)
        · cases hseparator : isSeparator line with
          | true =>
              exact step_separator hplace hblock hcomment hseparator ▸
                .separator hplace hblock hcomment hseparator
          | false =>
              have hcode : IsCode line := ⟨hblock, hcomment, hseparator⟩
              rw [step_code hplace hcode]
              cases hdeclared : declared? p.classes line with
              | none => exact .unrecognised hplace hcode hdeclared
              | some d => exact .declaration hplace hcode hdeclared

/-! ### What a line adds -/

/-- What a line declares where it is met, if it is met in code and declares
something. -/
def found? (p : Progress) (line : Text) : Option Declaration :=
  if p.place = .code ∧ roleOf line = .other then declared? p.classes line else none

theorem roleOf_eq_other_iff {line : Text} : roleOf line = .other ↔ IsCode line := by
  constructor
  · intro hother
    have hblock : ¬ OpensBlock line := by
      intro hopens
      rw [roleOf_of_opensBlock hopens] at hother
      split at hother <;> cases hother
    have hcomment : ¬ IsPlainComment line := by
      intro hplain
      rcases roleOf_of_isPlainComment hplain with h | h <;> rw [h] at hother <;> cases hother
    rw [roleOf_of_code hblock hcomment] at hother
    refine ⟨hblock, hcomment, ?_⟩
    cases hseparator : isSeparator line with
    | true => rw [hseparator] at hother; cases hother
    | false => rfl
  · intro hcode
    rw [roleOf_of_code hcode.notBlock hcode.notComment, hcode.notSeparator]
    rfl

theorem found?_eq_some_iff {p : Progress} {line : Text} {d : Declaration} :
    found? p line = some d ↔ p.place = .code ∧ IsCode line ∧ declared? p.classes line = some d := by
  rw [found?, ← roleOf_eq_other_iff]
  constructor
  · intro h
    split at h
    · next hmet => exact ⟨hmet.1, hmet.2, h⟩
    · cases h
  · rintro ⟨hplace, hrole, hsome⟩
    rw [if_pos ⟨hplace, hrole⟩, hsome]

/-- Only a declaration adds to what was found, and nothing else changes it. -/
theorem Consumed.classes_eq {p q : Progress} {line : Text} (h : Consumed p line q) :
    q.classes = ((found? p line).map (record p.classes line p.pending)).getD p.classes := by
  have hnothing : (∀ d, found? p line ≠ some d) →
      ((found? p line).map (record p.classes line p.pending)).getD p.classes = p.classes := by
    intro hne
    rw [Option.eq_none_iff_forall_ne_some.2 hne]
    rfl
  cases h with
  | blockLine place closed =>
      refine (hnothing fun d hd => ?_).symm
      rw [(found?_eq_some_iff.1 hd).1] at place
      cases place
  | blockEnd place closed =>
      refine (hnothing fun d hd => ?_).symm
      rw [(found?_eq_some_iff.1 hd).1] at place
      cases place
  | blockStart place opens closed =>
      exact (hnothing fun d hd => (found?_eq_some_iff.1 hd).2.1.notBlock opens).symm
  | blockWhole place opens closed =>
      exact (hnothing fun d hd => (found?_eq_some_iff.1 hd).2.1.notBlock opens).symm
  | comment place hnext =>
      refine (hnothing fun d hd => ?_).symm
      obtain ⟨hcode, hline, -⟩ := found?_eq_some_iff.1 hd
      rcases place with ⟨-, hcomment⟩ | hplace
      · exact hline.notComment hcomment
      · rw [hcode] at hplace
        cases hplace
  | separator place hblock hcomment hseparator =>
      refine (hnothing fun d hd => ?_).symm
      rw [(found?_eq_some_iff.1 hd).2.1.notSeparator] at hseparator
      cases hseparator
  | unrecognised place code hnone =>
      refine (hnothing fun d hd => ?_).symm
      rw [(found?_eq_some_iff.1 hd).2.2] at hnone
      cases hnone
  | declaration place code hsome =>
      rw [found?_eq_some_iff.2 ⟨place, code, hsome⟩]
      rfl

end DocPress.Javadoc
