import DocPress.Proofs.Comment.Normal
import DocPress.Proofs.Javadoc.Attachment
import DocPress.Proofs.Javadoc.Lexical

/-!
# Where a comment ends

A scan looks at the beginning and at the end of a line only.  This file compares the
place at which a scan meets a line with the comments of the text as Java reads them
(`InComment`).  The two agree after every line if comments keep to lines
(`CommentsKeepToLines`).  A comment that has code behind its closing mark on the same
line is not seen to end, and a line comment is taken to end where its line does for this
library, though not for Java (`place_misses_end_of_comment`).

The argument goes line by line.  `inComment_iff_not_closes` is about a part of a line that
stands in a comment; both a line inside of a comment and what follows an opening mark are
such a part.  `place_step_iff` is the step over one line and `place_iff_inComment` the run.
-/

namespace DocPress.Javadoc

open Text Comment

/-- Every block comment begins where only blanks stand before it on its line, and no
literal holds a mark of a comment. -/
structure CommentsStartLines (content : Text) : Prop where
  opened : ∀ n < content.length, OpensAt content n → AreBlanks (lineBefore content n)
  unquoted : ∀ n < content.length, ∀ mark ∈ [['/', '*'], ['/', '/'], ['*', '/']],
    mark <+: content.drop n → (modeAfter (content.take n)).inLiteral = false

/-- In addition, a line on which a block comment is closed ends with a closing mark, and a
line that begins in a line comment, behind a break that Java does not know, leaves nothing
open that looks like a block comment. -/
structure CommentsKeepToLines (content : Text) : Prop extends CommentsStartLines content where
  closed : ∀ n < content.length, ClosesAt content n → Closes (trim (lineFrom content n))
  ended : ∀ n < content.length, AtLineStart (content.take n) →
    modeAfter (content.take n) = .lineComment →
    ['/', '*'] <+: trim (lineFrom content n) → Closes ((trim (lineFrom content n)).drop 2)

/-! ### Marks at the ends of lines -/

theorem isTrimmed_openingMark : IsTrimmed ['/', '*'] := by
  constructor <;> simp <;> decide

theorem closes_trim_iff {t : Text} :
    Closes (trim t) ↔ ∃ a r, t = a ++ '*' :: '/' :: r ∧ AreBlanks r := by
  constructor
  · rintro ⟨a, ha⟩
    obtain ⟨l, r, heq, -, hr⟩ := exists_trim t
    refine ⟨l ++ a, r, ?_, hr⟩
    rw [← ha] at heq
    rw [heq]
    simp
  · rintro ⟨a, r, rfl, hr⟩
    have hsplit : a ++ '*' :: '/' :: r = (a ++ ['*', '/']) ++ r := by simp
    rw [hsplit, trim_append_right hr, trim_append_trimmed _ isTrimmed_closing (by simp)]
    exact List.suffix_append _ _

/-- Blanks behind a text do not hide a closing mark at its end. -/
theorem closes_trim_append_iff {s r : Text} (hs : trimRight s = s) (hr : AreBlanks r) :
    Closes (trim (s ++ r)) ↔ Closes s := by
  rw [closes_trim_iff]
  constructor
  · rintro ⟨a, q, heq, hq⟩
    refine ⟨a, ?_⟩
    calc a ++ ['*', '/']
        = trimRight (a ++ ['*', '/']) :=
          (trimRight_append_trimmed a isTrimmed_closing (by simp)).symm
      _ = trimRight (a ++ ['*', '/'] ++ q) := (trimRight_append_blanks _ hq).symm
      _ = trimRight (s ++ r) := by rw [heq]; simp
      _ = s := by rw [trimRight_append_blanks _ hr, hs]
  · rintro ⟨a, rfl⟩
    exact ⟨a, r, by simp, hr⟩

/-! ### Where a line leaves a scan -/

section place

variable {p : Progress} {line s : Text}

/-- A line inside of a comment ends it only by a closing mark at its end. -/
theorem place_step_of_comment (hplace : p.place ≠ .code) :
    (step p line).place ≠ .code ↔ ¬ Closes line := by
  by_cases hclosed : Closes line
  · have hcode : (step p line).place = .code := by
      cases h : p.place with
      | code => exact absurd h hplace
      | docBlock own => rw [step_blockEnd h hclosed]
      | plainComment => rw [step_plainEnd h hclosed]
    simp [hcode, hclosed]
  · have hinside : (step p line).place ≠ .code := by
      cases h : p.place with
      | code => exact absurd h hplace
      | docBlock own => rw [step_blockLine h hclosed]; simp
      | plainComment => rwa [step_plainLine h hclosed]
    simp [hinside, hclosed]

/-- A comment is closed on the line that opens it only by a closing mark at its end,
and this mark shares no character with the opening one. -/
theorem place_step_of_opening (hplace : p.place = .code) :
    (step p ('/' :: '*' :: s)).place ≠ .code ↔ ¬ Closes s := by
  by_cases hblock : OpensBlock ('/' :: '*' :: s)
  · obtain ⟨⟨rest, hrest⟩, hslash⟩ := id hblock
    obtain rfl : '*' :: rest = s := by simpa using hrest
    have hsame : Closes ('*' :: rest) ↔ Closes rest := by
      rw [Closes, List.suffix_cons_iff, ← Closes]
      refine or_iff_right fun heq => hslash ?_
      obtain rfl : ['/'] = rest := by simpa using heq
      exact List.prefix_rfl
    rw [hsame]
    by_cases hclosed : Closes rest
    · rw [step_blockWhole hplace hblock hclosed]
      simp [hplace, hclosed]
    · rw [step_blockStart hplace hblock hclosed]
      simp [hclosed]
  · rw [step_plainOpening hplace hblock]
    by_cases hclosed : Closes s
    · rw [if_pos hclosed]
      simp [hplace, hclosed]
    · rw [if_neg hclosed]
      simp [hclosed]

/-- A line of code that does not begin with the mark of a comment leaves a scan in code. -/
theorem place_step_of_code (hplace : p.place = .code) (hline : ¬ ['/', '*'] <+: line) :
    (step p line).place = .code := by
  by_cases hcomment : ['/', '/'] <+: line
  · rw [step_lineComment hplace hcomment, hplace]
  · have hblock : ¬ OpensBlock line := fun hopens =>
      hline (List.IsPrefix.trans ⟨['*'], rfl⟩ hopens.1)
    have hplain : ¬ IsPlainComment line := by
      rintro (h | ⟨h, -⟩)
      · exact hcomment h
      · exact hline h
    cases hseparator : isSeparator line with
    | true => rw [step_separator hplace hblock hplain hseparator, hplace]
    | false => rw [step_code hplace ⟨hblock, hplain, hseparator⟩, hplace]

end place

/-! ### The part of a line that stands in a comment -/

/-- A part of a line in a comment reaches the end of the comment exactly if the line
has a closing mark at its end. -/
theorem inComment_iff_not_closes {content pre x tail : Text} (h : CommentsKeepToLines content)
    (hcontent : content = pre ++ (x ++ tail)) (hx : OneLine x)
    (htail : ∀ c ∈ tail.head?, isBreak c = true) (hmode : modeAfter pre = .blockComment)
    (hopen : ∀ a b, x = a ++ '*' :: b → modeAfter (pre ++ a) ≠ .slash) :
    (modeAfter (pre ++ x)).inComment = true ↔ ¬ Closes (trim x) := by
  rw [closes_trim_iff]
  constructor
  · rintro hin ⟨a, r, rfl, -⟩
    -- the mark at the end closes the comment, unless it was closed before
    have hout : (modeAfter (pre ++ (a ++ '*' :: '/' :: r))).inComment = false := by
      cases ha : (modeAfter (pre ++ a)).inComment with
      | true =>
          have hmark : modeAfter (pre ++ (a ++ '*' :: '/' :: r)) = Mode.code.run r := by
            rw [← List.append_assoc, modeAfter_append, Mode.run_cons, Mode.next_star ha]
            rfl
          rw [hmark]
          refine Mode.run_outside rfl fun b c hbc => ?_
          have hslash := hopen (a ++ '*' :: '/' :: b) c (by rw [hbc]; simp)
          rwa [← List.append_assoc, modeAfter_append, Mode.run_cons, Mode.next_star ha] at hslash
      | false =>
          rw [← List.append_assoc, modeAfter_append]
          refine Mode.run_outside ha fun b c hbc => ?_
          rw [← modeAfter_append, List.append_assoc]
          exact hopen (a ++ b) c (by rw [hbc]; simp)
    rw [hout] at hin
    cases hin
  · intro hnot
    rw [modeAfter_append, hmode]
    rcases Mode.run_inside (m := .blockComment) (t := x) rfl with hin | ⟨a, b, rfl, hstar⟩
    · exact hin
    · obtain ⟨w, rfl⟩ := Mode.eq_concat_of_run_star hstar (by decide)
      have hplace : content = (pre ++ w) ++ '*' :: '/' :: (b ++ tail) := by
        rw [hcontent]
        simp
      have hcloses : ClosesAt content (pre ++ w).length := by
        rw [hplace, ClosesAt, markAt_append, List.append_assoc, modeAfter_append, hmode]
        exact hstar
      have hline : lineFrom content (pre ++ w).length = '*' :: '/' :: b := by
        have hone : OneLine ('*' :: '/' :: b) := by
          have hsplit : w ++ ['*'] ++ '/' :: b = w ++ '*' :: '/' :: b := by simp
          rw [hsplit, oneLine_append] at hx
          exact hx.2
        rw [hplace]
        exact lineFrom_append (a := '*' :: '/' :: b) hone htail
      have hend := h.closed _ (by rw [hplace]; simp) hcloses
      rw [hline, closes_trim_iff] at hend
      obtain ⟨a, r, hab, hr⟩ := hend
      refine absurd ⟨w ++ a, r, ?_, hr⟩ hnot
      rw [List.append_assoc, List.append_assoc, ← hab]
      rfl

/-! ### One line -/

section line

variable {content pre line tail : Text}

/-- No mark of a comment is half read where a line begins. -/
theorem mode_at_line_start (hstart : AtLineStart pre) :
    modeAfter pre ≠ .slash ∧ modeAfter pre ≠ .star := by
  rcases List.eq_nil_or_concat' pre with rfl | ⟨w, c, rfl⟩
  · decide
  · have hbreak : isBreak c = true := hstart c (by simp)
    have hmode : modeAfter (w ++ [c]) = (modeAfter w).next c := modeAfter_append w [c]
    rw [hmode]
    refine ⟨fun hslash => ?_, fun hstar => ?_⟩
    · rw [Mode.eq_slash_of_next hslash] at hbreak
      exact absurd hbreak (by decide)
    · rw [Mode.eq_star_of_next hstar] at hbreak
      exact absurd hbreak (by decide)

/-- A comment that is opened on a line has only blanks before it. -/
theorem blanks_before_opening (h : CommentsKeepToLines content)
    (hcontent : content = pre ++ (line ++ tail)) (hstart : AtLineStart pre) (hline : OneLine line)
    {a b : Text} (hab : line = a ++ '*' :: b) (hslash : modeAfter (pre ++ a) = .slash) :
    ∃ l, a = l ++ ['/'] ∧ AreBlanks l := by
  have hmode := (mode_at_line_start hstart).1
  rw [modeAfter_append] at hslash
  obtain ⟨l, rfl⟩ := Mode.eq_concat_of_run_slash hslash hmode
  refine ⟨l, rfl, ?_⟩
  have hone : OneLine l := by
    rw [hab, List.append_assoc, oneLine_append] at hline
    exact hline.1
  have hplace : content = (pre ++ l) ++ '/' :: '*' :: (b ++ tail) := by
    rw [hcontent, hab]
    simp
  have hopens : OpensAt content (pre ++ l).length := by
    rw [hplace, OpensAt, markAt_append, List.append_assoc, modeAfter_append]
    exact hslash
  have hblanks := h.opened _ (by rw [hplace]; simp) hopens
  rwa [hplace, List.length_append, List.append_assoc, lineBefore_append hstart hone] at hblanks

/-- Blanks hold no mark of a comment. -/
theorem ne_of_areBlanks {l : Text} (h : AreBlanks l) : ∀ c ∈ l, c ≠ '/' ∧ c ≠ '*' := by
  intro c hc
  have hblank := h c hc
  constructor <;> rintro rfl <;> exact absurd hblank (by decide)

/-- A line that begins inside of a comment. -/
theorem inComment_line_inside (h : CommentsKeepToLines content)
    (hcontent : content = pre ++ (line ++ tail)) (hstart : AtLineStart pre) (hline : OneLine line)
    (htail : ∀ c ∈ tail.head?, isBreak c = true) (hin : (modeAfter pre).inComment = true) :
    (modeAfter (pre ++ line)).inComment = true ↔ ¬ Closes (trim line) := by
  have hmode : modeAfter pre = .blockComment := by
    have hstar := (mode_at_line_start hstart).2
    cases hm : modeAfter pre <;> simp_all [Mode.inComment]
  refine inComment_iff_not_closes h hcontent hline htail hmode fun a b hab hslash => ?_
  -- behind blanks the comment still goes on, and a slash in it opens nothing
  obtain ⟨l, rfl, hl⟩ := blanks_before_opening h hcontent hstart hline hab hslash
  rw [← List.append_assoc, modeAfter_append, modeAfter_append,
    Mode.run_unmarked hmode (ne_of_areBlanks hl)] at hslash
  cases hslash

/-- The opening mark of a comment at the beginning of a line, behind blanks. -/
theorem modeAfter_opening {l rest : Text} (h : CommentsKeepToLines content)
    (hcontent : content = pre ++ (l ++ '/' :: '*' :: rest)) (hstart : AtLineStart pre)
    (hl : AreBlanks l) (hout : (modeAfter pre).inComment = false)
    (hcomment : modeAfter pre ≠ .lineComment) :
    modeAfter (pre ++ l ++ ['/', '*']) = .blockComment := by
  have hslash := (mode_at_line_start hstart).1
  have hmarks := ne_of_areBlanks hl
  have hcode : (modeAfter (pre ++ l)).next '/' = .slash := by
    rw [modeAfter_append]
    refine Mode.next_slash ?_ ?_ ?_ ?_
    · refine Mode.run_outside hout fun a b hab => ?_
      exact absurd rfl (hmarks '*' (by simp [hab])).2
    · have hplace : content = (pre ++ l) ++ '/' :: '*' :: rest := by rw [hcontent]; simp
      have hliteral := h.unquoted (pre ++ l).length (by rw [hplace]; simp) ['/', '*'] (by simp)
        (by rw [hplace, List.drop_left]; exact ⟨rest, rfl⟩)
      rwa [hplace, List.take_left, modeAfter_append] at hliteral
    · exact fun hline => hcomment (Mode.eq_lineComment_of_run hline fun c hc => (hmarks c hc).1)
    · intro hlast
      obtain ⟨a, rfl⟩ := Mode.eq_concat_of_run_slash hlast hslash
      exact absurd rfl (hmarks '/' (by simp)).1
  rw [modeAfter_append, Mode.run_cons, hcode]
  rfl

/-- A line that opens a comment behind blanks. -/
theorem inComment_line_opening (h : CommentsKeepToLines content)
    (hcontent : content = pre ++ (line ++ tail)) (hstart : AtLineStart pre) (hline : OneLine line)
    (htail : ∀ c ∈ tail.head?, isBreak c = true) (hout : (modeAfter pre).inComment = false)
    (hcomment : modeAfter pre ≠ .lineComment) {s : Text} (hs : trim line = '/' :: '*' :: s) :
    (modeAfter (pre ++ line)).inComment = true ↔ ¬ Closes s := by
  obtain ⟨l, r, heq, hl, hr⟩ := exists_trim line
  have hsplit : line = l ++ '/' :: '*' :: (s ++ r) := by
    rw [heq, hs]
    rfl
  have hplace : content = pre ++ (l ++ '/' :: '*' :: (s ++ r ++ tail)) := by
    rw [hcontent, hsplit]
    simp
  have hopening := modeAfter_opening h hplace hstart hl hout hcomment
  have hright : trimRight s = s := by
    have htrimmed := (isTrimmed_trim line).trimRight_eq
    rw [hs] at htrimmed
    exact List.append_cancel_left ((trimRight_append isTrimmed_openingMark s).symm.trans htrimmed)
  have hone : OneLine (s ++ r) := by
    have happend : line = (l ++ ['/', '*']) ++ (s ++ r) := by
      rw [hsplit]
      simp
    rw [happend, oneLine_append] at hline
    exact hline.2
  have hwhole : pre ++ line = (pre ++ l ++ ['/', '*']) ++ (s ++ r) := by
    rw [hsplit]
    simp
  rw [hwhole, ← closes_trim_append_iff hright hr]
  refine inComment_iff_not_closes h (by rw [hcontent, ← List.append_assoc, hwhole]; simp) hone htail
    hopening fun a b hab hslash => ?_
  -- a second comment on the line would have the first opening mark before it
  have hslash' : modeAfter (pre ++ (l ++ '/' :: '*' :: a)) = .slash := by simpa using hslash
  have hab' : line = (l ++ '/' :: '*' :: a) ++ '*' :: b := by
    rw [hsplit, hab]
    simp
  obtain ⟨w, hw, hblank⟩ := blanks_before_opening h hcontent hstart hline hab' hslash'
  have hmem : '*' ∈ w ++ ['/'] := by
    rw [← hw]
    simp
  have hstar : '*' ∈ w := by simpa using hmem
  exact absurd rfl (ne_of_areBlanks hblank '*' hstar).2

/-- A line of code that opens no comment. -/
theorem inComment_line_code (h : CommentsKeepToLines content)
    (hcontent : content = pre ++ (line ++ tail)) (hstart : AtLineStart pre) (hline : OneLine line)
    (hout : (modeAfter pre).inComment = false) (hnot : ¬ ['/', '*'] <+: trim line) :
    (modeAfter (pre ++ line)).inComment = false := by
  rw [modeAfter_append]
  refine Mode.run_outside hout fun a b hab hslash => hnot ?_
  rw [← modeAfter_append] at hslash
  obtain ⟨l, rfl, hl⟩ := blanks_before_opening h hcontent hstart hline hab hslash
  have hsplit : l ++ ['/'] ++ '*' :: b = l ++ (['/', '*'] ++ b) := by simp
  rw [hab, hsplit, trim_append_left hl, trim_trimmed_append isTrimmed_openingMark (by simp)]
  exact List.prefix_append _ _

/-- What looks like the opening of a block comment in a line comment is closed. -/
theorem closes_of_lineComment (h : CommentsKeepToLines content)
    (hcontent : content = pre ++ (line ++ tail)) (hstart : AtLineStart pre) (hline : OneLine line)
    (htail : ∀ c ∈ tail.head?, isBreak c = true) (hmode : modeAfter pre = .lineComment)
    {s : Text} (hs : trim line = '/' :: '*' :: s) : Closes s := by
  have hfrom : lineFrom content pre.length = line := by
    rw [hcontent]
    exact lineFrom_append hline htail
  have htake : content.take pre.length = pre := by rw [hcontent, List.take_left]
  have hlength : pre.length < content.length := by
    have hne : line ≠ [] := by
      rintro rfl
      cases hs
    have hpos := List.length_pos_iff.2 hne
    rw [hcontent]
    simp only [List.length_append]
    omega
  have hended := h.ended pre.length hlength (htake.symm ▸ hstart) (htake.symm ▸ hmode)
  rw [hfrom, hs] at hended
  exact hended ⟨s, rfl⟩

/-- A line leaves a scan inside of a comment exactly if it leaves Java there. -/
theorem place_step_iff {p : Progress} (h : CommentsKeepToLines content)
    (hcontent : content = pre ++ (line ++ tail)) (hstart : AtLineStart pre) (hline : OneLine line)
    (htail : ∀ c ∈ tail.head?, isBreak c = true)
    (hp : p.place ≠ .code ↔ (modeAfter pre).inComment = true) :
    (step p (trim line)).place ≠ .code ↔ (modeAfter (pre ++ line)).inComment = true := by
  cases hin : (modeAfter pre).inComment with
  | true =>
      rw [place_step_of_comment (hp.2 hin),
        inComment_line_inside h hcontent hstart hline htail hin]
  | false =>
      have hplace : p.place = .code := by
        rw [hin] at hp
        simpa using hp
      by_cases hopens : ['/', '*'] <+: trim line
      · obtain ⟨s, hs⟩ := hopens
        have hs' : trim line = '/' :: '*' :: s := hs.symm
        rw [hs', place_step_of_opening hplace]
        by_cases hcomment : modeAfter pre = .lineComment
        · have hclosed := closes_of_lineComment h hcontent hstart hline htail hcomment hs'
          have hends : ∀ c ∈ line, endsLine c = false := fun c hc => endsLine_of_oneLine hline hc
          rw [modeAfter_append, hcomment, Mode.run_lineComment hends]
          simp [hclosed, Mode.inComment]
        · rw [inComment_line_opening h hcontent hstart hline htail hin hcomment hs']
      · rw [inComment_line_code h hcontent hstart hline hin hopens]
        simp [place_step_of_code hplace hopens]

end line

/-! ### Whole texts -/

theorem inComment_run_breaks {m : Mode} {e : Text} (he : ∀ c ∈ e, isBreak c = true) :
    (m.run e).inComment = m.inComment := by
  induction e generalizing m with
  | nil => rfl
  | cons c e ih =>
      obtain ⟨hc, hmore⟩ := List.forall_mem_cons.1 he
      rw [Mode.run_cons, ih hmore]
      cases hm : m.inComment with
      | true =>
          refine eq_true_of_ne_false fun hnext => ?_
          rw [(Mode.eq_star_of_leaves hm hnext).2] at hc
          exact absurd hc (by decide)
      | false =>
          refine eq_false_of_ne_true fun hnext => ?_
          rw [(Mode.eq_slash_of_enters hm hnext).2] at hc
          exact absurd hc (by decide)

/-- The run over the lines of the rest of a text, from a line on that both agree about. -/
theorem place_foldl_iff {content : Text} (h : CommentsKeepToLines content) (n : Nat)
    {pre rest : Text} {p : Progress} (hcontent : content = pre ++ rest)
    (hstart : rest ≠ [] → AtLineStart pre)
    (hp : p.place ≠ .code ↔ (modeAfter pre).inComment = true) :
    (((trimmedLines rest).take n).foldl step p).place ≠ .code ↔
      (modeAfter (pre ++ firstLines n rest)).inComment = true := by
  induction n generalizing pre rest p with
  | zero => simpa [firstLines] using hp
  | succ n ih =>
      by_cases hrest : rest = []
      · subst hrest
        simpa [trimmedLines, lines_nil, firstLines] using hp
      · obtain ⟨line, ending, more, heq, hone, hending, hnil, hlines, hfirst⟩ :=
          exists_firstLine hrest
        have htail : ∀ c ∈ (ending ++ more).head?, isBreak c = true := by
          cases ending with
          | nil => simp [hnil rfl]
          | cons c ending => simpa using hending c List.mem_cons_self
        have hstep := place_step_iff h (hcontent.trans (by rw [heq])) (hstart hrest) hone htail hp
        have hnext : AtLineStart (pre ++ (line ++ ending)) ∨ more = [] := by
          rcases List.eq_nil_or_concat' ending with rfl | ⟨e, c, rfl⟩
          · exact .inr (hnil rfl)
          · refine .inl fun d hd => hending d ?_
            simp at hd
            simp [hd]
        rw [trimmedLines, hlines, List.map_cons, List.take_succ_cons, List.foldl_cons, hfirst,
          ← trimmedLines, ← List.append_assoc line, ← List.append_assoc pre]
        refine ih ?_ (fun hmore => hnext.resolve_right hmore) ?_
        · rw [hcontent, heq]
          simp
        · rw [hstep, ← List.append_assoc, modeAfter_append (pre ++ line),
            inComment_run_breaks hending]

/-- After every line, a scan is inside of a documentation block or another comment exactly
if the comment opened last has not met its closing mark. -/
theorem place_iff_inComment {content : Text} (h : CommentsKeepToLines content) (n : Nat) :
    (progressAt (trimmedLines content) n).place ≠ .code ↔ InComment (firstLines n content) := by
  rw [← inComment_modeAfter_iff]
  refine place_foldl_iff h n (List.nil_append content).symm (fun _ c hc => nomatch hc) ?_
  simp [modeAfter, Mode.inComment, Progress.start]

/-- Marks that close nothing or open nothing: a second closing mark on a line, a slash
that would complete a closing mark with the opening star, marks in a line comment, which
here goes on behind the end of a line. -/
theorem place_iff_inComment_marks :
    let content : Text := "/** a\n b */ c */\n /*/\nd\n*/\n// */ /* \"e\u2028f\n/**/".toList
    CommentsKeepToLines content ∧
      (∀ n, (progressAt (trimmedLines content) n).place ≠ .code ↔
        InComment (firstLines n content)) ∧
      InComment (firstLines 1 content) ∧ ¬ InComment (firstLines 2 content) ∧
      InComment (firstLines 3 content) ∧ ¬ InComment (firstLines 8 content) := by
  intro content
  have hkeep : CommentsKeepToLines content :=
    ⟨⟨by decide +kernel, by decide +kernel⟩, by decide +kernel, by decide +kernel⟩
  refine ⟨hkeep, place_iff_inComment hkeep, ?_⟩
  simp only [← inComment_modeAfter_iff]
  decide +kernel

/-- A comment with code behind its closing mark is not seen to end, and what looks like a
comment behind the end of a line that Java does not know is seen to begin.  Either hides
the type on the next line. -/
theorem place_misses_end_of_comment :
    let closed : Text := "/* a\n */ int b;\nclass A".toList
    let unended : Text := "// a\u2028/* b\nclass A".toList
    (CommentsStartLines closed ∧ ¬ InComment (firstLines 2 closed) ∧
        (progressAt (trimmedLines closed) 2).place = .plainComment ∧ classesOf closed = []) ∧
      (CommentsStartLines unended ∧ ¬ InComment (firstLines 2 unended) ∧
        (progressAt (trimmedLines unended) 2).place = .plainComment ∧ classesOf unended = []) := by
  intro closed unended
  simp only [← inComment_modeAfter_iff]
  exact ⟨⟨⟨by decide +kernel, by decide +kernel⟩, by decide +kernel⟩,
    ⟨⟨by decide +kernel, by decide +kernel⟩, by decide +kernel⟩⟩

end DocPress.Javadoc
