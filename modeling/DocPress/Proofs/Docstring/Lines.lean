import DocPress.Docstring.Lexer
import DocPress.Docstring.Scan
import DocPress.Proofs.Text.LineEnds

/-!
# Two ways to count lines

The reader of tokens unifies the line ends and counts line feeds; the scan cuts the text at
its line ends.  Both agree: the pieces of the cut are the pieces between the line feeds of
the unified text (`physicalLines_eq`).
-/

namespace DocPress.Docstring

open Text

/-- The lines as they are counted are the pieces between the line ends. -/
theorem physicalLines_eq (t : Text) : physicalLines t = splitAt '\n' (unifyLineEnds t) := by
  fun_induction unifyLineEnds t with
  | case1 => rfl
  | case2 t ih => rw [physicalLines, splitAt_cons_self, ih]
  | case3 c t hne ih =>
      rw [physicalLines.eq_3 _ _ hne, ih]
      obtain ⟨piece, more, hpiece⟩ := exists_splitAt '\n' (unifyLineEnds t)
      split
      · next hc =>
          have hbreak : (if c = '\r' then '\n' else c) = '\n' := by
            rcases (by simpa using hc : c = '\r' ∨ c = '\n') with rfl | rfl <;> rfl
          rw [hbreak, splitAt_cons_self]
      · next hc =>
          obtain ⟨hr, hn⟩ : c ≠ '\r' ∧ c ≠ '\n' := by simpa using hc
          rw [if_neg hr, splitAt_cons_of_ne hn hpiece, hpiece]

theorem length_splitAt (sep : Char) (t : Text) : (splitAt sep t).length = t.count sep + 1 := by
  induction t with
  | nil => rfl
  | cons c t ih =>
      by_cases hc : c = sep
      · subst hc
        rw [splitAt_cons_self, List.length_cons, ih, List.count_cons_self]
      · obtain ⟨piece, more, hpiece⟩ := exists_splitAt sep t
        rw [splitAt_cons_of_ne hc hpiece, List.count_cons_of_ne hc, ← ih, hpiece]
        rfl

/-- The piece that is reached behind whole pieces begins with what follows them. -/
theorem getElem?_splitAt {sep : Char} {front x rest piece : Text} {more : List Text}
    (hfront : ∀ c ∈ front.getLast?, c = sep) (hx : sep ∉ x)
    (hpiece : splitAt sep rest = piece :: more) :
    (splitAt sep (front ++ (x ++ rest)))[front.count sep]? = some (x ++ piece) := by
  have hhead := splitAt_append_left hx hpiece
  rcases List.eq_nil_or_concat front with rfl | ⟨l, c, rfl⟩
  · rw [List.nil_append, hhead]
    rfl
  · obtain rfl : c = sep := hfront c (by simp)
    have hcount : (l ++ [c]).count c = (splitAt c l).length := by
      rw [length_splitAt, List.count_append, List.count_singleton_self]
    rw [List.concat_eq_append, hcount, List.append_assoc, List.singleton_append,
      splitAt_append_cons, List.getElem?_append_right (Nat.le_refl _), Nat.sub_self, hhead]
    rfl

end DocPress.Docstring
