import DocPress.Docstring.Lexer
import DocPress.Proofs.Fallible
import Mathlib.Data.List.Basic

/-!
# What the reader takes of a text

Numbers stand on one line (`onLine_of_number`).  Strings may go over several lines, and the
line that the reader is on behind them is counted by the line feeds they hold
(`overLines_of_stringBody`).
-/

namespace DocPress.Docstring

open Text

/-! ### Numbers -/

/-- What was read of a text on one line: its head and the rest. -/
structure OnLine (t head rest : Text) : Prop where
  eq : t = head ++ rest
  noFeed : '\n' ∉ head

theorem OnLine.nil (t : Text) : OnLine t [] t := ⟨rfl, by simp⟩

theorem OnLine.cons {c : Char} {t head rest : Text} (hc : c ≠ '\n') (h : OnLine t head rest) :
    OnLine (c :: t) (c :: head) rest :=
  ⟨by rw [h.eq, List.cons_append], by simp [hc.symm, h.noFeed]⟩

theorem OnLine.append {t head more rest rest' : Text} (h : OnLine t head rest)
    (h' : OnLine rest more rest') : OnLine t (head ++ more) rest' :=
  ⟨by rw [h.eq, h'.eq, List.append_assoc], by simp [h.noFeed, h'.noFeed]⟩

theorem ne_feed_of_isDigit {isDigit : Char → Bool} (hfeed : isDigit '\n' = false) {c : Char}
    (hc : isDigit c = true) : c ≠ '\n' := by
  rintro rfl
  rw [hfeed] at hc
  cases hc

theorem onLine_of_digitTail {isDigit : Char → Bool} (hfeed : isDigit '\n' = false)
    {t digits rest : Text} (h : digitTail isDigit t = .ok (digits, rest)) :
    OnLine t digits rest := by
  fun_induction digitTail isDigit t generalizing digits rest with
  | case1 => cases h; exact .nil []
  | case2 c t hc ih =>
      obtain ⟨⟨more, rest'⟩, hmore, h⟩ := exists_of_bind_eq_ok h
      cases h
      exact (ih hmore).cons (ne_feed_of_isDigit hfeed hc)
  | case3 d t hd hc ih =>
      obtain ⟨⟨more, rest'⟩, hmore, h⟩ := exists_of_bind_eq_ok h
      cases h
      exact ((ih hmore).cons (ne_feed_of_isDigit hfeed hd)).cons (by decide)
  | case4 => cases h
  | case5 => cases h
  | case6 c t hc hne => cases h; exact .nil _

theorem onLine_of_basedDigits {isDigit : Char → Bool} (hfeed : isDigit '\n' = false)
    {t digits rest : Text} (h : basedDigits isDigit t = .ok (digits, rest)) :
    OnLine t digits rest := by
  unfold basedDigits at h
  split at h
  · next c t =>
      split at h
      · next hc =>
          obtain ⟨⟨more, rest'⟩, hmore, h⟩ := exists_of_map_eq_ok h
          cases h
          exact ((onLine_of_digitTail hfeed hmore).cons (ne_feed_of_isDigit hfeed hc)).cons
            (by decide)
      · cases h
  · next c t _ =>
      split at h
      · next hc =>
          obtain ⟨⟨more, rest'⟩, hmore, h⟩ := exists_of_map_eq_ok h
          cases h
          exact (onLine_of_digitTail hfeed hmore).cons (ne_feed_of_isDigit hfeed hc)
      · cases h
  · cases h

theorem eq_of_finishNumber {kind : String} {text rest text' rest' : Text}
    (h : finishNumber kind text rest = .ok (text', rest')) : text' = text ∧ rest' = rest := by
  unfold finishNumber at h
  split at h
  · cases h; exact ⟨rfl, rfl⟩
  · cases h

/-- A number that goes on: what is read so far stays, and more of the line is read. -/
def Extends (text rest text' rest' : Text) : Prop :=
  ∃ more, text' = text ++ more ∧ OnLine rest more rest'

theorem Extends.refl (text rest : Text) : Extends text rest text rest :=
  ⟨[], (List.append_nil _).symm, .nil rest⟩

theorem Extends.of_append {text head rest rest' text' rest'' : Text}
    (hhead : OnLine rest head rest') (h : Extends (text ++ head) rest' text' rest'') :
    Extends text rest text' rest'' := by
  obtain ⟨more, rfl, hmore⟩ := h
  exact ⟨head ++ more, List.append_assoc .., hhead.append hmore⟩

theorem Extends.of_finishNumber {kind : String} {text rest text' rest' : Text}
    (h : finishNumber kind text rest = .ok (text', rest')) : Extends text rest text' rest' := by
  obtain ⟨rfl, rfl⟩ := eq_of_finishNumber h
  exact .refl _ _

theorem extends_of_imaginaryTail {text rest text' rest' : Text}
    (h : imaginaryTail text rest = .ok (text', rest')) : Extends text rest text' rest' := by
  unfold imaginaryTail at h
  split at h
  · next c more =>
      split at h
      · next hc =>
          have hne : c ≠ '\n' := by rintro rfl; revert hc; decide
          exact .of_append ((OnLine.nil more).cons hne) (.of_finishNumber h)
      · exact .of_finishNumber h
  · cases h; exact .refl _ _

theorem onLine_of_decimalTail {t digits rest : Text} (h : decimalTail t = .ok (digits, rest)) :
    OnLine t digits rest := by
  unfold decimalTail at h
  split at h
  · next hr => cases h; exact onLine_of_digitTail (by decide) hr
  · cases h

theorem extends_of_exponentTail {text rest text' rest' : Text}
    (h : exponentTail text rest = .ok (text', rest')) : Extends text rest text' rest' := by
  unfold exponentTail at h
  split at h
  · next e more =>
      split at h
      · next he =>
          have hne : e ≠ '\n' := by rintro rfl; revert he; decide
          split at h
          · next s d digits =>
              split at h
              · next hs =>
                  have hs' : s ≠ '\n' := by rintro rfl; revert hs; decide
                  split at h
                  · next hd =>
                      obtain ⟨⟨tail, rest⟩, htail, h⟩ := exists_of_bind_eq_ok h
                      have hd' : d ≠ '\n' := by rintro rfl; revert hd; decide
                      have hread := (((onLine_of_decimalTail htail).cons hd').cons hs').cons hne
                      exact .of_append hread (extends_of_imaginaryTail h)
                  · cases h
              · split at h
                · next hs =>
                    have hs' : s ≠ '\n' := by rintro rfl; revert hs; decide
                    obtain ⟨⟨tail, rest⟩, htail, h⟩ := exists_of_bind_eq_ok h
                    exact .of_append (((onLine_of_decimalTail htail).cons hs').cons hne)
                      (extends_of_imaginaryTail h)
                · exact .of_finishNumber h
          · next s =>
              split at h
              · next hs =>
                  have hs' : s ≠ '\n' := by rintro rfl; revert hs; decide
                  cases h
                  exact ⟨[e, s], rfl, ((OnLine.nil []).cons hs').cons hne⟩
              · split at h
                · cases h
                · exact .of_finishNumber h
          · exact .of_finishNumber h
      · exact extends_of_imaginaryTail h
  · cases h; exact .refl _ _

theorem extends_of_fractionTail {text rest text' rest' : Text}
    (h : fractionTail text rest = .ok (text', rest')) : Extends text rest text' rest' := by
  unfold fractionTail at h
  split at h
  · split at h
    · obtain ⟨⟨digits, rest''⟩, hdigits, h⟩ := exists_of_bind_eq_ok h
      exact .of_append (onLine_of_decimalTail hdigits) (extends_of_exponentTail h)
    · exact extends_of_exponentTail h
  · cases h; exact .refl _ _

theorem Extends.onLine {t head rest text' rest' : Text} (hhead : OnLine t head rest)
    (h : Extends head rest text' rest') : OnLine t text' rest' := by
  obtain ⟨more, rfl, hmore⟩ := h
  exact hhead.append hmore

theorem onLine_of_basedNumber {kind : String} {isDigit : Char → Bool} {zero mark : Char}
    (hfeed : isDigit '\n' = false) (hzero : zero ≠ '\n') (hmark : mark ≠ '\n') {t text rest : Text}
    (h : basedNumber kind isDigit zero mark t = .ok (text, rest)) :
    OnLine (zero :: mark :: t) text rest := by
  unfold basedNumber at h
  split at h
  · cases h
  · next digits rest' hdigits =>
      have hhead := ((onLine_of_basedDigits hfeed hdigits).cons hmark).cons hzero
      split at h
      · split at h
        · cases h
        · obtain ⟨rfl, rfl⟩ := eq_of_finishNumber h
          exact hhead
      · cases h
        exact hhead

theorem onLine_of_plainNumber {t text rest : Text} (h : plainNumber t = .ok (text, rest)) :
    OnLine t text rest := by
  unfold plainNumber at h
  obtain ⟨⟨digits, rest'⟩, hdigits, h⟩ := exists_of_bind_eq_ok h
  have hhead := onLine_of_decimalTail hdigits
  dsimp only at h
  split at h
  · next c more =>
      split at h
      · next hc =>
          subst hc
          have hpoint := hhead.append ((OnLine.nil more).cons (by decide))
          exact (extends_of_fractionTail h).onLine hpoint
      · split at h
        · exact (extends_of_exponentTail h).onLine hhead
        · split at h
          · exact (extends_of_imaginaryTail h).onLine hhead
          · split at h
            · cases h
            · exact (Extends.of_finishNumber h).onLine hhead
  · split at h
    · cases h
    · cases h
      exact hhead

/-- A number stands whole on its line. -/
theorem onLine_of_number {t text rest : Text} (h : number t = .ok (text, rest)) :
    OnLine t text rest := by
  unfold number at h
  split at h
  · next more =>
      exact (extends_of_fractionTail h).onLine ((OnLine.nil more).cons (by decide))
  · next mark more =>
      split_ifs at h with hhex hoctal hbinary
      · have hmark : mark ≠ '\n' := by rintro rfl; revert hhex; decide
        exact onLine_of_basedNumber (by decide) (by decide) hmark h
      · have hmark : mark ≠ '\n' := by rintro rfl; revert hoctal; decide
        exact onLine_of_basedNumber (by decide) (by decide) hmark h
      · have hmark : mark ≠ '\n' := by rintro rfl; revert hbinary; decide
        exact onLine_of_basedNumber (by decide) (by decide) hmark h
      · exact onLine_of_plainNumber h
  · exact onLine_of_plainNumber h

/-! ### Strings -/

/-- What was read of a text over several lines: its head, the rest, and the number of the
line reached, which counts only while something is left. -/
structure OverLines (line : Nat) (t head rest : Text) (last : Nat) : Prop where
  eq : t = head ++ rest
  last_eq : rest ≠ [] → last = line + head.count '\n'

theorem OnLine.overLines {t head rest : Text} (h : OnLine t head rest) (line : Nat) :
    OverLines line t head rest line :=
  ⟨h.eq, fun _ => by rw [List.count_eq_zero_of_not_mem h.noFeed, Nat.add_zero]⟩

/-- After characters before it the reading goes on from the line they lead to. -/
theorem OverLines.append {line line' last : Nat} {t head mid more rest : Text}
    (hhead : OverLines line t head mid line') (h : OverLines line' mid more rest last) :
    OverLines line t (head ++ more) rest last := by
  refine ⟨by rw [hhead.eq, h.eq, List.append_assoc], fun hrest => ?_⟩
  have hmid : mid ≠ [] := by simp [h.eq, hrest]
  rw [h.last_eq hrest, hhead.last_eq hmid, List.count_append, Nat.add_assoc]

theorem overLines_single (line : Nat) (c : Char) (rest : Text) :
    OverLines line (c :: rest) [c] rest (if c = '\n' then lineAfter line rest else line) := by
  refine ⟨rfl, fun hrest => ?_⟩
  by_cases hc : c = '\n' <;> simp [hc, lineAfter, hrest]

/-- A line end behind a backslash. -/
theorem overLines_joined (line : Nat) (rest : Text) :
    OverLines line ('\\' :: '\n' :: rest) (['\\'] ++ ['\n']) rest (line + 1) :=
  ⟨rfl, fun _ => rfl⟩

theorem exists_of_prepend {front head rest : Text} {last : Nat} {r : StringRead}
    (h : r.prepend front = .ok (head, rest, last)) :
    ∃ more, r = .ok (more, rest, last) ∧ head = front ++ more := by
  obtain ⟨⟨more, rest', last'⟩, hr, h⟩ := exists_of_map_eq_ok h
  cases h
  exact ⟨more, hr, rfl⟩

theorem overLines_of_shortString {mark : Char} (hmark : mark ≠ '\n') {line last : Nat}
    {t head rest : Text} (h : shortString mark line t = .ok (head, rest, last)) :
    OverLines line t head rest last := by
  fun_induction shortString mark line t generalizing head with
  | case1 => cases h
  | case2 line c t ih =>
      obtain ⟨more, hmore, rfl⟩ := exists_of_prepend h
      exact (((OnLine.nil (c :: t)).cons (by decide)).overLines line).append
        ((overLines_single line c t).append (ih hmore))
  | case3 => cases h; exact ((OnLine.nil _).cons hmark).overLines _
  | case4 => cases h
  | case5 line c t _ _ hne ih =>
      obtain ⟨more, hmore, rfl⟩ := exists_of_prepend h
      exact (((OnLine.nil t).cons hne).overLines line).append (ih hmore)

theorem overLines_of_longString {mark : Char} (hmark : mark ≠ '\n') {line last : Nat}
    {t head rest : Text} (h : longString mark line t = .ok (head, rest, last)) :
    OverLines line t head rest last := by
  fun_induction longString mark line t generalizing head with
  | case1 => cases h
  | case2 line c t ih =>
      obtain ⟨more, hmore, rfl⟩ := exists_of_prepend h
      exact (((OnLine.nil (c :: t)).cons (by decide)).overLines line).append
        ((overLines_single line c t).append (ih hmore))
  | case3 line c t _ hend =>
      cases h
      obtain ⟨rfl, htake⟩ : c = mark ∧ t.take 2 = [mark, mark] := by simpa using hend
      have ht : t = [c, c] ++ t.drop 2 := by rw [← htake, List.take_append_drop]
      rw [ht]
      exact ((((OnLine.nil _).cons hmark).cons hmark).cons hmark).overLines _
  | case4 line c t _ _ ih =>
      obtain ⟨more, hmore, rfl⟩ := exists_of_prepend h
      exact (overLines_single line c t).append (ih hmore)

theorem overLines_of_short {line last : Nat} {a : Char} (ha : a ≠ '\n') {t head rest : Text}
    (h : stringBody.short line a t = .ok (head, rest, last)) :
    OverLines line (a :: t) head rest last := by
  unfold stringBody.short at h
  split at h
  · next ht =>
      cases h
      exact (((OnLine.nil t).cons ha).overLines line).append (overLines_of_shortString ha ht)
  · cases h

/-- A string may go over several lines, and the line it ends on is counted. -/
theorem overLines_of_stringBody {line last : Nat} {a : Char} (ha : a ≠ '\n') {t head rest : Text}
    (h : stringBody line (a :: t) = .ok (head, rest, last)) :
    OverLines line (a :: t) head rest last := by
  unfold stringBody at h
  split at h
  · next a' b c t' heq =>
      obtain ⟨rfl, rfl⟩ := List.cons.inj heq
      split at h
      · next hmarks =>
          obtain ⟨rfl, rfl⟩ : b = a ∧ c = a := by simpa using hmarks
          split at h
          · next ht =>
              cases h
              exact (((((OnLine.nil _).cons ha).cons ha).cons ha).overLines line).append
                (overLines_of_longString ha ht)
          · cases h
      · split at h
        · next hb =>
            subst hb
            cases h
            exact (((OnLine.nil _).cons ha).cons ha).overLines line
        · exact overLines_of_short ha h
  · next heq =>
      obtain ⟨rfl, rfl⟩ := List.cons.inj heq
      exact overLines_of_short ha h
  · cases h

end DocPress.Docstring
