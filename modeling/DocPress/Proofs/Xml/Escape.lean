import DocPress.Proofs.Text.LineEnds
import DocPress.Xml.Reader
import DocPress.Xml.Writer

/-!
# Escaped text

What the writer does to the characters of a text, and how the reader undoes it.

* `unifyLineEnds_escapeText`: it does not matter whether a text is escaped before
  or after its line ends are unified.
* `attributeValue_escapeValue`: an escaped attribute value is read back as it
  was, line ends and tabs included, because the writer spells those as
  references.
* `escapeChar_cases`, `escapeValueChar_cases`: all that a character can become.
-/

namespace DocPress.Xml

open Text

/-! ### Characters of text -/

/-- A text that may stand in an attribute value or between tags: nothing in it ends
either, and a reader changes none of it. -/
def IsInert (t : Text) : Prop := ∀ c ∈ t, c ≠ '\r' ∧ c ≠ '"' ∧ c ≠ '>' ∧ isDocumentChar c

instance (t : Text) : Decidable (IsInert t) := List.decidableBAll _ t

/-- A character of text is written as itself or as a reference to it. -/
theorem escapeChar_cases (c : Char) :
    (escapeChar c = [c] ∧ c ≠ '&' ∧ c ≠ '<' ∧ c ≠ '>') ∨
      ∃ name, escapeChar c = '&' :: name ∧
        IsInert name ∧
        ∀ rest, reference? (name ++ rest) = some (.char c, rest) := by
  unfold escapeChar
  split
  · next h => exact Or.inr ⟨"amp;".toList, rfl, by decide, fun rest => by rw [h]; rfl⟩
  split
  · next h => exact Or.inr ⟨"lt;".toList, rfl, by decide, fun rest => by rw [h]; rfl⟩
  split
  · next h => exact Or.inr ⟨"gt;".toList, rfl, by decide, fun rest => by rw [h]; rfl⟩
  · next hamp hlt hgt => exact Or.inl ⟨rfl, hamp, hlt, hgt⟩

@[simp] theorem escapeText_nil : escapeText [] = [] := rfl

@[simp] theorem escapeText_cons (c : Char) (t : Text) :
    escapeText (c :: t) = escapeChar c ++ escapeText t := by
  simp [escapeText]

/-- Escaping and unifying line ends do not disturb each other. -/
theorem unifyLineEnds_escapeText (t : Text) :
    unifyLineEnds (escapeText t) = escapeText (unifyLineEnds t) := by
  have hlf : escapeChar '\n' = ['\n'] := rfl
  have hcr : escapeChar '\r' = ['\r'] := rfl
  fun_induction unifyLineEnds t with
  | case1 => rfl
  | case2 rest ih => simp [hlf, hcr, unifyLineEnds, ih]
  | case3 c rest hrest ih =>
      by_cases hc : c = '\r'
      · -- the carriage return stands alone, also when what follows is escaped
        have hhead : (escapeText rest).head? ≠ some '\n' := by
          cases rest with
          | nil => simp
          | cons d rest =>
              have hd : d ≠ '\n' := fun hd => hrest rest hc (by rw [hd])
              rcases escapeChar_cases d with ⟨h, _⟩ | ⟨name, h, _⟩ <;> simp [h, hd]
        rw [hc, escapeText_cons, hcr, List.singleton_append, unifyLineEnds_return hhead, ih,
          if_pos rfl, escapeText_cons, hlf, List.singleton_append]
      · have hno : '\r' ∉ escapeChar c := by
          rcases escapeChar_cases c with ⟨h, _⟩ | ⟨name, h, hname, _⟩
          · simpa [h] using fun h => hc h.symm
          · rw [h]
            intro hmem
            rcases List.mem_cons.1 hmem with heq | hmem
            · exact absurd heq (by decide)
            · exact (hname _ hmem).1 rfl
        rw [if_neg hc, escapeText_cons, escapeText_cons, unifyLineEnds_append_of_notMem _ hno, ih]

theorem gt_notMem_escapeText (t : Text) : '>' ∉ escapeText t := by
  intro hmem
  obtain ⟨c, -, hc⟩ := List.mem_flatMap.1 hmem
  rcases escapeChar_cases c with ⟨heq, -, -, hgt⟩ | ⟨name, heq, hname, -⟩
  · rw [heq, List.mem_singleton] at hc
    exact hgt hc.symm
  · rw [heq] at hc
    rcases List.mem_cons.1 hc with hc | hc
    · exact absurd hc (by decide)
    · exact (hname _ hc).2.2.1 rfl

/-- Escaped text can be held by a document if the text can. -/
theorem isDocumentChar_of_mem_escapeText {t : Text} (h : ∀ c ∈ t, isDocumentChar c) :
    ∀ c ∈ escapeText t, isDocumentChar c := by
  intro x hx
  obtain ⟨c, hc, hxc⟩ := List.mem_flatMap.1 hx
  rcases escapeChar_cases c with ⟨heq, _⟩ | ⟨name, heq, hname, _⟩
  · rw [heq, List.mem_singleton] at hxc
    exact hxc ▸ h c hc
  · rw [heq] at hxc
    rcases List.mem_cons.1 hxc with rfl | hxc
    · decide
    · exact (hname x hxc).2.2.2

/-! ### Characters of attribute values -/

/-- A character of an attribute value is written as itself, and then it is none
that ends the value or that a reader would change, or as a reference to it. -/
theorem escapeValueChar_cases (c : Char) :
    (escapeValueChar c = [c] ∧ c ≠ '&' ∧ c ≠ '<' ∧ c ≠ '"' ∧ c ≠ '\r' ∧ c ≠ '\n' ∧ c ≠ '\t') ∨
      ∃ name, escapeValueChar c = '&' :: name ∧
        IsInert name ∧
        ∀ rest, reference? (name ++ rest) = some (.char c, rest) := by
  unfold escapeValueChar
  split
  · next h => exact Or.inr ⟨"quot;".toList, rfl, by decide, fun rest => by rw [h]; rfl⟩
  split
  · next h => exact Or.inr ⟨"#13;".toList, rfl, by decide, fun rest => by rw [h]; rfl⟩
  split
  · next h => exact Or.inr ⟨"#10;".toList, rfl, by decide, fun rest => by rw [h]; rfl⟩
  split
  · next h => exact Or.inr ⟨"#09;".toList, rfl, by decide, fun rest => by rw [h]; rfl⟩
  · next hquot hcr hlf htab =>
      rcases escapeChar_cases c with ⟨heq, hamp, hlt, _⟩ | hreference
      · exact Or.inl ⟨heq, hamp, hlt, hquot, hcr, hlf, htab⟩
      · exact Or.inr hreference

@[simp] theorem escapeValue_nil : escapeValue [] = [] := rfl

@[simp] theorem escapeValue_cons (c : Char) (t : Text) :
    escapeValue (c :: t) = escapeValueChar c ++ escapeValue t := by
  simp [escapeValue]

/-- An escaped value holds neither its own quotation mark nor a carriage return,
and a document can hold it if it can hold the value. -/
theorem mem_escapeValue {v : Text} {x : Char} (h : x ∈ escapeValue v) :
    x ≠ '"' ∧ x ≠ '\r' ∧ (isDocumentChar x ∨ x ∈ v) := by
  obtain ⟨c, hc, hxc⟩ := List.mem_flatMap.1 h
  rcases escapeValueChar_cases c with ⟨heq, _, _, hquot, hcr, _⟩ | ⟨name, heq, hname, _⟩
  · rw [heq, List.mem_singleton] at hxc
    subst hxc
    exact ⟨hquot, hcr, Or.inr hc⟩
  · rw [heq] at hxc
    rcases List.mem_cons.1 hxc with rfl | hxc
    · exact ⟨by decide, by decide, Or.inl (by decide)⟩
    · obtain ⟨hcr, hquot, -, hdoc⟩ := hname x hxc
      exact ⟨hquot, hcr, Or.inl hdoc⟩

/-- An escaped attribute value is read back as it was. -/
theorem attributeValue_escapeValue (d : Declarations) (v : Text) (fuel : Nat)
    (hfuel : (escapeValue v).length < fuel) :
    attributeValue d fuel [] (escapeValue v) = some v := by
  induction v generalizing fuel with
  | nil =>
      cases fuel with
      | zero => simp at hfuel
      | succ fuel => rfl
  | cons c v ih =>
      cases fuel with
      | zero => simp at hfuel
      | succ fuel =>
          rcases escapeValueChar_cases c with
            ⟨heq, hamp, hlt, _, _, hlf, htab⟩ | ⟨name, heq, _, hread⟩
          · have hshort : (escapeValue v).length < fuel := by
              simpa [heq] using hfuel
            have hspace : (if isSpace c then ' ' else c) = c := by
              simp only [isSpace, hlf, htab, decide_false, Bool.or_false, decide_eq_true_eq]
              split
              · next h => exact h.symm
              · rfl
            rw [escapeValue_cons, heq, List.singleton_append, attributeValue, if_neg hlt,
              if_neg hamp, ih fuel hshort, Option.map_some, hspace]
          · have hshort : (escapeValue v).length < fuel := by
              simp only [escapeValue_cons, heq, List.cons_append, List.length_cons,
                List.length_append] at hfuel
              omega
            rw [escapeValue_cons, heq, List.cons_append, attributeValue, if_neg (by decide),
              if_pos rfl, hread]
            simp [ih fuel hshort]

end DocPress.Xml
