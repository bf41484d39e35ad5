import DocPress.Proofs.Text.Trim
import DocPress.Proofs.Text.Lines

/-!
# Comments as Java reads them

Java reads a text character by character.  A block comment is opened by a slash and a
star that stand in code, and goes on to the first star and slash after them.  Marks in
line comments, in string and character literals and in text blocks open nothing.

`Mode` says where the next character stands, and `modeAfter` is the mode after a text.
The rules follow the language, in which only a line feed and a carriage return end a
line; the lines of this library end with a few other characters too.  Escapes that write
a character by its number are taken as already replaced.
-/

namespace DocPress.Javadoc

open Text

/-- Where a character of a text stands. -/
inductive Mode where
  | code
  /-- In code, right after a slash. -/
  | slash
  | lineComment
  | blockComment
  /-- In a block comment, right after a star. -/
  | star
  /-- In a literal that ends with the given quote. -/
  | literal (mark : Char)
  /-- In such a literal, right after a backslash. -/
  | escaped (mark : Char)
  /-- After one double quote, which begins a string. -/
  | quote
  /-- After two double quotes: an empty string, or two thirds of a text block's mark. -/
  | quotes
  /-- In a text block, after so many quotes in a row. -/
  | textBlock (quotes : Nat)
  /-- In a text block, right after a backslash. -/
  | textEscaped
deriving DecidableEq

/-- The characters that end a line of Java text. -/
def endsLine (c : Char) : Bool := c == '\n' || c == '\r'

theorem endsLine_of_oneLine {t : Text} (ht : OneLine t) {c : Char} (hc : c ∈ t) :
    endsLine c = false := by
  refine Bool.eq_false_iff.2 fun hend => ?_
  have hbreak := ht c hc
  simp only [endsLine, Bool.or_eq_true, beq_iff_eq] at hend
  rcases hend with rfl | rfl <;> exact absurd hbreak (by decide)

namespace Mode

/-- The mode after a character of code. -/
def ofCode (c : Char) : Mode :=
  if c = '/' then slash
  else if c = '"' then quote
  else if c = '\'' then literal '\''
  else code

/-- The mode after one more character. -/
def next : Mode → Char → Mode
  | code, c => ofCode c
  | slash, c => if c = '/' then lineComment else if c = '*' then blockComment else ofCode c
  | lineComment, c => if endsLine c then code else lineComment
  | blockComment, c => if c = '*' then star else blockComment
  | star, c => if c = '/' then code else if c = '*' then star else blockComment
  | literal mark, c =>
      if c = mark ∨ endsLine c then code else if c = '\\' then escaped mark else literal mark
  | escaped mark, c => if endsLine c then code else literal mark
  | quote, c =>
      if c = '"' then quotes
      else if endsLine c then code
      else if c = '\\' then escaped '"'
      else literal '"'
  | quotes, c => if c = '"' then textBlock 0 else ofCode c
  | textBlock n, c =>
      if c = '"' then if n = 2 then code else textBlock (n + 1)
      else if c = '\\' then textEscaped
      else textBlock 0
  | textEscaped, _ => textBlock 0

/-- Inside of a block comment. -/
def inComment : Mode → Bool
  | blockComment => true
  | star => true
  | _ => false

/-- Inside of a literal or a text block. -/
def inLiteral : Mode → Bool
  | literal _ => true
  | escaped _ => true
  | quote => true
  | textBlock _ => true
  | textEscaped => true
  | _ => false

/-! ### One character -/

section next

variable {m : Mode} {c : Char}

/-- A block comment is only entered by the star of its opening mark. -/
theorem eq_slash_of_enters (h : m.inComment = false) (hnext : (m.next c).inComment = true) :
    m = slash ∧ c = '*' := by
  cases m <;> simp only [next, ofCode] at hnext <;> grind [inComment]

/-- A block comment is only left by the slash of its closing mark. -/
theorem eq_star_of_leaves (h : m.inComment = true) (hnext : (m.next c).inComment = false) :
    m = star ∧ c = '/' := by
  cases m <;> simp only [next] at hnext <;> grind [inComment]

theorem eq_slash_of_next (h : m.next c = slash) : c = '/' := by
  cases m <;> simp only [next, ofCode] at h <;> grind

theorem eq_star_of_next (h : m.next c = star) : c = '*' := by
  cases m <;> simp only [next, ofCode] at h <;> grind

/-- A line comment goes on only where its line does. -/
theorem eq_lineComment_of_next (h : m.next c = lineComment) (hc : c ≠ '/') :
    m = lineComment ∧ endsLine c = false := by
  cases m <;> simp only [next, ofCode] at h <;> grind

theorem next_star (h : m.inComment = true) : m.next '*' = star := by
  cases m <;> first | rfl | cases h

theorem next_in_comment (h : m.inComment = true) (hslash : c ≠ '/') (hstar : c ≠ '*') :
    m.next c = blockComment := by
  cases m <;> simp only [next] <;> grind [inComment]

/-- A slash in code may open a comment. -/
theorem next_slash (hcomment : m.inComment = false) (hliteral : m.inLiteral = false)
    (hline : m ≠ lineComment) (hslash : m ≠ slash) : m.next '/' = slash := by
  cases m with
  | code => rfl
  | slash => exact absurd rfl hslash
  | lineComment => exact absurd rfl hline
  | blockComment => cases hcomment
  | star => cases hcomment
  | literal mark => cases hliteral
  | escaped mark => cases hliteral
  | quote => cases hliteral
  | quotes => rfl
  | textBlock n => cases hliteral
  | textEscaped => cases hliteral

end next

/-! ### Texts -/

/-- The mode after a text. -/
def run (m : Mode) (t : Text) : Mode := t.foldl next m

section run

variable {m : Mode} {t : Text}

@[simp] theorem run_nil (m : Mode) : m.run [] = m := rfl

@[simp] theorem run_cons (m : Mode) (c : Char) (t : Text) : m.run (c :: t) = (m.next c).run t := rfl

@[simp] theorem run_append (m : Mode) (a b : Text) : m.run (a ++ b) = (m.run a).run b :=
  List.foldl_append

/-- Where nothing is opened, a text outside of comments stays outside. -/
theorem run_outside (h : m.inComment = false)
    (hopen : ∀ a b, t = a ++ '*' :: b → m.run a ≠ slash) : (m.run t).inComment = false := by
  induction t generalizing m with
  | nil => exact h
  | cons c t ih =>
      refine ih (m := m.next c) ?_ fun a b hab => hopen (c :: a) b (by rw [hab]; rfl)
      refine Bool.eq_false_iff.2 fun hnext => ?_
      obtain ⟨rfl, rfl⟩ := eq_slash_of_enters h hnext
      exact hopen [] t rfl rfl

/-- A text in a comment stays inside, or meets the end of the comment. -/
theorem run_inside (h : m.inComment = true) :
    (m.run t).inComment = true ∨ ∃ a b, t = a ++ '/' :: b ∧ m.run a = star := by
  induction t generalizing m with
  | nil => exact .inl h
  | cons c t ih =>
      cases hnext : (m.next c).inComment with
      | true =>
          rcases ih hnext with hin | ⟨a, b, rfl, hstar⟩
          · exact .inl hin
          · exact .inr ⟨c :: a, b, rfl, hstar⟩
      | false =>
          obtain ⟨rfl, rfl⟩ := eq_star_of_leaves h hnext
          exact .inr ⟨[], t, rfl, rfl⟩

theorem eq_concat_of_run_slash (h : m.run t = slash) (hm : m ≠ slash) : ∃ a, t = a ++ ['/'] := by
  rcases List.eq_nil_or_concat' t with rfl | ⟨a, c, rfl⟩
  · exact absurd h hm
  · rw [run_append] at h
    exact ⟨a, by rw [eq_slash_of_next h]⟩

theorem eq_concat_of_run_star (h : m.run t = star) (hm : m ≠ star) : ∃ a, t = a ++ ['*'] := by
  rcases List.eq_nil_or_concat' t with rfl | ⟨a, c, rfl⟩
  · exact absurd h hm
  · rw [run_append] at h
    exact ⟨a, by rw [eq_star_of_next h]⟩

/-- Text without marks does not leave a comment. -/
theorem run_unmarked (h : m = blockComment) (ht : ∀ c ∈ t, c ≠ '/' ∧ c ≠ '*') :
    m.run t = blockComment := by
  induction t generalizing m with
  | nil => exact h
  | cons c t ih =>
      obtain ⟨⟨hslash, hstar⟩, hmore⟩ := List.forall_mem_cons.1 ht
      exact ih (next_in_comment (by rw [h]; rfl) hslash hstar) hmore

/-- Text without a slash does not begin a line comment. -/
theorem eq_lineComment_of_run (h : m.run t = lineComment) (ht : ∀ c ∈ t, c ≠ '/') :
    m = lineComment := by
  induction t generalizing m with
  | nil => exact h
  | cons c t ih =>
      obtain ⟨hslash, hmore⟩ := List.forall_mem_cons.1 ht
      exact (eq_lineComment_of_next (ih h hmore) hslash).1

/-- A line comment goes on to the end of its line. -/
theorem run_lineComment (ht : ∀ c ∈ t, endsLine c = false) :
    lineComment.run t = lineComment := by
  induction t with
  | nil => rfl
  | cons c t ih =>
      obtain ⟨hc, hmore⟩ := List.forall_mem_cons.1 ht
      have hnext : lineComment.next c = lineComment := by simp [next, hc]
      rw [run_cons, hnext, ih hmore]

end run

end Mode

/-- The mode after a text that begins in code. -/
def modeAfter (t : Text) : Mode := Mode.code.run t

theorem modeAfter_append (a b : Text) : modeAfter (a ++ b) = (modeAfter a).run b :=
  Mode.run_append .code a b

/-- A block comment is opened in a text, and its closing mark has not come yet. -/
def InComment (t : Text) : Prop :=
  ∃ u v, t = u ++ '/' :: '*' :: v ∧ modeAfter (u ++ ['/']) = .slash ∧ ¬ ['*', '/'] <:+: v

/-- Without a closing mark a comment goes on. -/
theorem Mode.inComment_run_of_not_infix {v : Text} (h : ¬ ['*', '/'] <:+: v) :
    (Mode.blockComment.run v).inComment = true := by
  rcases Mode.run_inside (m := .blockComment) (t := v) rfl with hin | ⟨a, b, rfl, hstar⟩
  · exact hin
  · obtain ⟨w, rfl⟩ := Mode.eq_concat_of_run_star hstar (by decide)
    exact absurd ⟨w, b, by simp⟩ h

/-- The mode of a comment says that its closing mark has not come yet. -/
theorem inComment_modeAfter_iff {t : Text} : (modeAfter t).inComment = true ↔ InComment t := by
  constructor
  · intro h
    induction t using List.reverseRecOn with
    | nil => cases h
    | append_singleton t c ih =>
        have hnext : ((modeAfter t).next c).inComment = true := by
          rwa [modeAfter_append] at h
        cases ht : (modeAfter t).inComment with
        | false =>
            obtain ⟨hslash, rfl⟩ := Mode.eq_slash_of_enters ht hnext
            obtain ⟨u, rfl⟩ := Mode.eq_concat_of_run_slash hslash (by decide)
            exact ⟨u, [], by simp, hslash, by decide⟩
        | true =>
            obtain ⟨u, v, rfl, hslash, hopen⟩ := ih ht
            refine ⟨u, v ++ [c], by simp, hslash, ?_⟩
            rw [List.infix_concat_iff]
            rintro (⟨a, ha⟩ | hinfix)
            · -- a mark made complete by the last character would have closed the comment
              have hlast : a ++ ['*'] ++ ['/'] = v ++ [c] := by simpa using ha
              obtain ⟨rfl, hc⟩ := List.append_inj' hlast rfl
              obtain rfl := (List.cons.inj hc).1
              have hbefore : ¬ ['*', '/'] <:+: a := fun h => hopen (h.trans ⟨[], ['*'], by simp⟩)
              have hmode : modeAfter (u ++ '/' :: '*' :: (a ++ ['*'])) = .star := by
                rw [List.append_cons, modeAfter_append, hslash]
                change Mode.blockComment.run (a ++ ['*']) = .star
                rw [Mode.run_append]
                exact Mode.next_star (Mode.inComment_run_of_not_infix hbefore)
              rw [hmode] at hnext
              cases hnext
            · exact hopen hinfix
  · rintro ⟨u, v, rfl, hslash, hopen⟩
    rw [List.append_cons, modeAfter_append, hslash]
    exact Mode.inComment_run_of_not_infix hopen

/-! ### Places in a text -/

/-- A mark of two characters stands at place `n`: the mode after its first character
is the given one, and its second character follows. -/
def MarkAt (content : Text) (m : Mode) (c : Char) (n : Nat) : Prop :=
  modeAfter (content.take (n + 1)) = m ∧ content[n + 1]? = some c

/-- A block comment is opened at place `n`. -/
def OpensAt (content : Text) (n : Nat) : Prop := MarkAt content .slash '*' n

/-- A block comment is closed at place `n`. -/
def ClosesAt (content : Text) (n : Nat) : Prop := MarkAt content .star '/' n

/-- What stands before place `n` on its line. -/
def lineBefore (content : Text) (n : Nat) : Text :=
  (content.take n).rtakeWhile fun c => !isBreak c

/-- What stands from place `n` on to the end of its line. -/
def lineFrom (content : Text) (n : Nat) : Text :=
  (content.drop n).takeWhile fun c => !isBreak c

instance (content : Text) (m : Mode) (c : Char) : DecidablePred (MarkAt content m c) := fun _ =>
  inferInstanceAs (Decidable (_ ∧ _))

instance (content : Text) : DecidablePred (OpensAt content) := fun n =>
  inferInstanceAs (Decidable (MarkAt content .slash '*' n))

instance (content : Text) : DecidablePred (ClosesAt content) := fun n =>
  inferInstanceAs (Decidable (MarkAt content .star '/' n))

theorem markAt_append {u v : Text} {m : Mode} {c d : Char} :
    MarkAt (u ++ c :: d :: v) m d u.length ↔ modeAfter (u ++ [c]) = m := by
  have htake : (u ++ c :: d :: v).take (u.length + 1) = u ++ [c] := by
    rw [List.append_cons, List.take_left' (by simp)]
  have hget : (u ++ c :: d :: v)[u.length + 1]? = some d := by
    rw [List.getElem?_append_right (by omega)]
    simp
  rw [MarkAt, htake, hget]
  simp

/-- A text that ends where a line begins. -/
def AtLineStart (t : Text) : Prop := ∀ c ∈ t.getLast?, isBreak c = true

instance : DecidablePred AtLineStart := fun t =>
  decidable_of_iff (t.getLast?.all isBreak = true) (Option.all_eq_true _ _)

theorem lineBefore_append {u a v : Text} (hu : AtLineStart u) (ha : OneLine a) :
    lineBefore (u ++ (a ++ v)) (u.length + a.length) = a := by
  have htake : (u ++ (a ++ v)).take (u.length + a.length) = u ++ a := by
    rw [← List.append_assoc, List.take_left' (by simp)]
  have hall : ∀ c ∈ a.reverse, (!isBreak c) = true := by
    intro c hc
    rw [ha c (List.mem_reverse.1 hc)]
    rfl
  rw [lineBefore, htake, List.rtakeWhile, List.reverse_append,
    List.takeWhile_append_of_pos hall, List.reverse_append, List.reverse_reverse]
  rcases List.eq_nil_or_concat' u with rfl | ⟨w, c, rfl⟩
  · rfl
  · have hc : isBreak c = true := hu c (by simp)
    rw [List.reverse_append]
    simp [hc]

theorem lineFrom_append {u a v : Text} (ha : OneLine a) (hv : ∀ c ∈ v.head?, isBreak c = true) :
    lineFrom (u ++ (a ++ v)) u.length = a := by
  have hall : ∀ c ∈ a, (!isBreak c) = true := by
    intro c hc
    rw [ha c hc]
    rfl
  rw [lineFrom, List.drop_left, List.takeWhile_append_of_pos hall]
  cases v with
  | nil => simp
  | cons c v => simp [hv c rfl]

end DocPress.Javadoc
