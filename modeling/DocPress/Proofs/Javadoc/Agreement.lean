import DocPress.Proofs.Comment.Segmentation
import DocPress.Proofs.Javadoc.Attachment

/-!
# What an attached block says of its comment

A scan takes the delimiters and one star of each line off a comment, and reading
the block that it attaches takes them off once more.  So the block says what the
comment in the text says exactly when the normal form of the comment is bare
(`attached_block_agrees_iff`): a line that has a second star, or a second
delimiter at either end, loses it.
-/

namespace DocPress.Javadoc

open Text Comment

/-- A documentation comment from its opening to its closing mark: it is closed at
the end of its last line and of no line before. -/
structure IsDocComment (comment : Text) : Prop where
  marks : ∃ middle, comment = delimited middle ∧ middle.head? ≠ some '/'
  notBefore : ∀ line ∈ (trimmedLines comment).dropLast, ¬ Closes line

/-- A comment begins on a line of code and ends on the line right above a
declaration.  Blanks around its lines do not matter. -/
structure StandsAbove (comment content : Text) (f : Finding) : Prop where
  found : f ∈ findings content
  above : ∃ before, before ++ trimmedLines comment <+: trimmedLines content ∧
    MetInCode (trimmedLines content) before.length ∧
    f.line = before.length + (trimmedLines comment).length

/-! ### Blocks as lists of lines -/

/-- Lines that are one block: the first opens it, and no line but the last closes
it. -/
structure IsBlock (first : Text) (others : List Text) : Prop where
  opens : OpensBlock first
  closes : ∃ parts last, first.drop 3 :: others = parts ++ [last] ∧
    (∀ line ∈ parts, ¬ Closes line) ∧ Closes last

/-- The lines of a block as it holds them. -/
def heldLines (first : Text) (others : List Text) : List Text :=
  trim (unclosed (first.drop 3)) :: others.map fun line => stripStar (unclosed line)

theorem lineAt_append {before ls rest : List Text} {line : Text} {n : Nat}
    (h : before ++ rest <+: ls) (hline : rest[n]? = some line) :
    lineAt ls (before.length + n) = line := by
  obtain ⟨after, rfl⟩ := h
  have hlt : n < rest.length := (List.getElem?_eq_some_iff.1 hline).1
  rw [lineAt, List.append_assoc, List.getElem?_append_right (Nat.le_add_right _ _),
    Nat.add_sub_cancel_left, List.getElem?_append_left hlt, hline, Option.getD_some]

theorem partAt_append {before ls others : List Text} {first line : Text} {n : Nat}
    (h : before ++ first :: others <+: ls) (hline : (first.drop 3 :: others)[n]? = some line) :
    partAt ls before.length (before.length + n) = line := by
  cases n with
  | zero =>
      rw [Nat.add_zero, partAt_self, ← Nat.add_zero before.length, lineAt_append (n := 0) h rfl]
      exact Option.some.inj hline
  | succ n =>
      rw [partAt_of_lt (by omega), lineAt_append h]
      exact hline

theorem ownLines_append {before ls others : List Text} {first : Text}
    (h : before ++ first :: others <+: ls) :
    ownLines ls before.length (before.length + (others.length + 1)) = heldLines first others := by
  have hfirst : lineAt ls before.length = first := lineAt_append (n := 0) h rfl
  rw [ownLines, Nat.add_sub_cancel_left, List.range'_succ, List.map_cons, ownLine_self, hfirst,
    heldLines]
  congr 1
  refine List.ext_getElem (by simp) fun n hn _ => ?_
  have hlt : n < others.length := by simpa using hn
  have hline : lineAt ls (before.length + (n + 1)) = others[n] :=
    lineAt_append h (by simp [List.getElem?_eq_getElem hlt])
  rw [List.getElem_map, List.getElem_map, List.getElem_range', Nat.one_mul,
    ownLine_of_lt (by omega), Nat.add_assoc, Nat.add_comm 1 n, hline]

/-- A block that begins on a line of code reaches the line after its last one. -/
theorem IsBlock.exists_reaches {before ls others : List Text} {first : Text}
    (hblock : IsBlock first others) (h : before ++ first :: others <+: ls)
    (hmet : MetInCode ls before.length) :
    ∃ i, Reaches ls i (before.length + (others.length + 1)) (blockOf (heldLines first others)) := by
  obtain ⟨parts, last, hparts, hunclosed, hclosed⟩ := hblock.closes
  have hlength : others.length = parts.length := by
    simpa using congrArg List.length hparts
  have hfirst : lineAt ls before.length = first := lineAt_append (n := 0) h rfl
  have hopen : OpenFrom ls before.length (before.length + parts.length) := by
    refine ⟨Nat.le_add_right _ _, hmet, hfirst.symm ▸ hblock.opens, fun k hk hlt => ?_⟩
    obtain ⟨n, rfl⟩ := Nat.exists_eq_add_of_le hk
    have hn : n < parts.length := by omega
    have hpart : (first.drop 3 :: others)[n]? = some parts[n] := by
      rw [hparts, List.getElem?_append_left hn, List.getElem?_eq_getElem hn]
    rw [partAt_append h hpart]
    exact hunclosed _ (List.getElem_mem hn)
  have hend : partAt ls before.length (before.length + parts.length) = last := by
    refine partAt_append h ?_
    rw [hparts, List.getElem?_append_right (Nat.le_refl _), Nat.sub_self]
    rfl
  refine ⟨before.length + parts.length, ?_⟩
  rw [hlength]
  refine reaches_succ hopen (hend ▸ hclosed) ?_
  rw [← ownLines_append h, hlength]
  rfl

/-! ### The lines of a comment -/

theorem opensBlock_append {t : Text} (h : t.head? ≠ some '/') :
    OpensBlock (['/', '*', '*'] ++ t) := by
  refine ⟨List.prefix_append _ _, ?_⟩
  rintro ⟨rest, hrest⟩
  obtain rfl : '/' :: rest = t := by simpa using hrest
  exact h rfl

theorem trimmedLines_delimited {middle first : Text} {others : List Text}
    (h : lines (middle ++ ['*', '/']) = first :: others) :
    trimmedLines (delimited middle) = (['/', '*', '*'] ++ trimRight first) :: others.map trim := by
  have hone : OneLine ['/', '*', '*'] := by decide
  rw [trimmedLines, delimited, lines_append_left hone h, List.map_cons,
    trim_trimmed_append isTrimmed_opening (by simp)]

/-- A comment on one line is a block that holds its trimmed text. -/
theorem isBlock_single {last : Text} (hslash : (last ++ ['*', '/']).head? ≠ some '/') :
    IsBlock (['/', '*', '*'] ++ (last ++ ['*', '/'])) [] ∧
      heldLines (['/', '*', '*'] ++ (last ++ ['*', '/'])) [] = cleaned [last] := by
  refine ⟨⟨opensBlock_append hslash, [], last ++ ['*', '/'], rfl, by simp, ⟨last, rfl⟩⟩, ?_⟩
  rw [heldLines, List.drop_left' (i := 3) rfl, unclosed_append]
  rfl

/-- A comment on several lines is a block that holds its cleaned lines. -/
theorem isBlock_many {first last : Text} {ls : List Text} (hslash : first.head? ≠ some '/')
    (hfirst : ¬ Closes (trimRight first)) (hls : ∀ line ∈ ls, ¬ Closes (trim line)) :
    IsBlock (['/', '*', '*'] ++ trimRight first) (ls.map trim ++ [trimLeft last ++ ['*', '/']]) ∧
      heldLines (['/', '*', '*'] ++ trimRight first)
        (ls.map trim ++ [trimLeft last ++ ['*', '/']]) = cleaned (first :: (ls ++ [last])) := by
  have hhead : (trimRight first).head? ≠ some '/' := by
    intro hhead
    obtain ⟨rest, hrest⟩ := List.head?_eq_some_iff.1 hhead
    obtain ⟨more, hmore⟩ : trimRight first <+: first := List.rdropWhile_prefix _ _
    rw [← hmore, hrest] at hslash
    exact hslash rfl
  constructor
  · refine ⟨opensBlock_append hhead, trimRight first :: ls.map trim, trimLeft last ++ ['*', '/'],
      rfl, List.forall_mem_cons.2 ⟨hfirst, ?_⟩, ⟨_, rfl⟩⟩
    exact List.forall_mem_map.2 hls
  · have hmiddle :
        (ls.map trim).map (fun line => stripStar (unclosed line)) = ls.map stripStar := by
      rw [List.map_map]
      refine List.map_congr_left fun line hline => ?_
      change stripStar (unclosed (trim line)) = stripStar line
      rw [unclosed_eq_self (hls line hline), stripStar_congr (trim_trim line)]
    rw [heldLines, List.drop_left' (i := 3) rfl, unclosed_eq_self hfirst, trim_trimRight,
      List.map_append, hmiddle, List.map_singleton, unclosed_append,
      stripStar_congr (trim_trimLeft last), cleaned, List.map_append, List.map_singleton]

/-- A documentation comment is a block of lines, and apart from blanks around it the
text of that block is the normal form of the comment. -/
theorem IsDocComment.exists_block {comment : Text} (h : IsDocComment comment) :
    ∃ first others, trimmedLines comment = first :: others ∧ IsBlock first others ∧
      Comment.normalize comment = trim (join ['\n'] (heldLines first others)) := by
  obtain ⟨middle, rfl, hslash⟩ := h.marks
  have hone : OneLine ['*', '/'] := by decide
  -- the closing mark ends the last line, or is a line of its own after a line end
  obtain ⟨ls, last, happend, hmiddle⟩ := exists_lines_append hone (by simp) middle
  have hnormal : Comment.normalize (delimited middle) =
      trim (join ['\n'] (cleaned (ls ++ [last]))) := by
    rw [normalize_eq_trim_join, body_delimited]
    rcases hmiddle with hlines | ⟨rfl, hlines⟩
    · rw [hlines]
    · rw [hlines, trim_join_cleaned_concat]
  have hhead : ∀ {first : Text} {others : List Text},
      lines (middle ++ ['*', '/']) = first :: others → first.head? ≠ some '/' := by
    intro first others hfirst hfirstHead
    have hall := head?_of_lines_eq_cons hfirst hfirstHead
    cases middle with
    | nil => exact absurd hall (by decide)
    | cons c middle => exact hslash hall
  cases ls with
  | nil =>
      have htrimmed := trimmedLines_delimited happend
      rw [trimRight_append_trimmed _ isTrimmed_closing (by simp)] at htrimmed
      obtain ⟨hblock, hheld⟩ := isBlock_single (hhead happend)
      refine ⟨_, _, htrimmed, hblock, ?_⟩
      rw [hnormal]
      exact congrArg (fun held => trim (join ['\n'] held)) hheld.symm
  | cons first ls =>
      rw [List.cons_append] at happend
      have htrimmed := trimmedLines_delimited happend
      rw [List.map_append, List.map_singleton, trim_append_trimmed _ isTrimmed_closing (by simp)]
        at htrimmed
      have hbefore : (trimmedLines (delimited middle)).dropLast =
          (['/', '*', '*'] ++ trimRight first) :: ls.map trim := by
        rw [htrimmed, ← List.cons_append, List.dropLast_concat]
      have hfirst : ¬ Closes (trimRight first) := by
        intro hclosed
        refine h.notBefore _ (hbefore ▸ List.mem_cons_self) (hclosed.trans ?_)
        exact List.suffix_append _ _
      have hls : ∀ line ∈ ls, ¬ Closes (trim line) := by
        intro line hline
        refine h.notBefore _ (hbefore ▸ List.mem_cons_of_mem _ ?_)
        exact List.mem_map_of_mem hline
      obtain ⟨hblock, hheld⟩ := isBlock_many (hhead happend) hfirst hls
      exact ⟨_, _, htrimmed, hblock, hheld ▸ hnormal⟩

/-! ### The block and its comment -/

/-- The declaration right below a comment carries a block, which reads as the normal
form of the comment does, and so says what the comment says exactly if that normal
form is bare. -/
theorem attached_block_agrees_iff {comment content : Text} {f : Finding}
    (hcomment : IsDocComment comment) (habove : StandsAbove comment content f) :
    ∃ b, f.doc = some b ∧ parse b.rawText = parse (Comment.normalize comment) ∧
      (b.description = (parse comment).description ∧ b.tags = (parse comment).tags ↔
        IsBare (Comment.normalize comment)) := by
  obtain ⟨first, others, htrimmed, hblock, hnormal⟩ := hcomment.exists_block
  obtain ⟨before, hprefix, hmet, hline⟩ := habove.above
  rw [htrimmed] at hprefix hline
  obtain ⟨i, hreaches⟩ := hblock.exists_reaches hprefix hmet
  obtain ⟨hlt, hfinding⟩ := mem_findingsBefore habove.found
  have hdoc : f.doc = some (blockOf (heldLines first others)) := by
    rw [(finding?_eq_some hfinding).2.2.2.2.2, hline]
    exact pending_of_reaches hreaches (hline ▸ Nat.le_of_lt hlt)
  -- reading the block normalizes its text, which is the normal form but for blanks around it
  have hread : parse (blockOf (heldLines first others)).rawText =
      parse (Comment.normalize comment) := by
    rw [hnormal, parse, parse, normalize_trim]
    rfl
  refine ⟨_, hdoc, hread, ?_⟩
  rw [← parse_normalize_eq_iff, ← hread]
  constructor
  · rintro ⟨hdescription, htags⟩
    have hfields := congr (congrArg Parsed.mk hdescription) htags
    exact hfields
  · intro h
    exact ⟨congrArg Parsed.description h, congrArg Parsed.tags h⟩

/-- The second item of a list loses its star, the first one keeps it. -/
theorem attached_block_list :
    let comment : Text := "/**\n * * one\n * * two\n */".toList
    let content : Text := comment ++ "\nclass Lists".toList
    ∃ f b, f ∈ findings content ∧ f.doc = some b ∧
      ¬ (b.description = (parse comment).description ∧ b.tags = (parse comment).tags) := by
  intro comment content
  obtain ⟨f, hf⟩ : ∃ f : Finding, f = ⟨4, "class Lists".toList,
    .type "class".toList "Lists".toList, some ⟨"\n* one\n* two\n".toList⟩⟩ := ⟨_, rfl⟩
  have hcomment : IsDocComment comment := by
    refine ⟨⟨"\n * * one\n * * two\n ".toList, by decide, by decide⟩, ?_⟩
    decide
  have habove : StandsAbove comment content f := by
    refine ⟨?_, [], ?_, rfl, ?_⟩
    · rw [hf]
      decide
    · decide
    · rw [hf]
      decide
  obtain ⟨b, hdoc, -, hagrees⟩ := attached_block_agrees_iff hcomment habove
  refine ⟨f, b, habove.found, hdoc, fun hboth => ?_⟩
  have hstar := (hagrees.1 hboth).unstarred "* two".toList (by decide)
  exact absurd hstar (by decide)

end DocPress.Javadoc
