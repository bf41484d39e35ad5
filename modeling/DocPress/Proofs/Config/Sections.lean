import DocPress.Config.Settings
import DocPress.Proofs.Decimal.NotANumber
import DocPress.Proofs.Fallible

/-!
# Settings by section

Each section of the settings is read from its own entry of the data alone
(`isRead_of_ofPlain`), and an entry that is empty reads as the defaults do
(`isRead_default`).  The page settings are checked by refusing what compares as too small,
and only a value that is no number does not compare at all.

The main statement says which settings can be loaded: they are valid, except that a length
is no number if the data spells that, and no section has a say in another one.
-/

namespace DocPress

open Text

/-- The sections of the settings. -/
inductive Section where
  | project
  | output
  | html
  | pdf
deriving DecidableEq

/-- The value that gives the number that is none: such a double, or a text or bytes that
spell it. -/
def Value.SpellsNaN : Value → Prop
  | float x => x.isNaN = true
  | text t => Decimal.SpellsNaN t
  | bytes bs => Decimal.SpellsNaN (bs.map Char.ofNat)
  | _ => False

/-- The entry of a mapping under a text; other values have none. -/
def Value.entry? (data : Value) (key : String) : Option Value :=
  match data with
  | map entries => lookup? entries key.toList
  | _ => none

namespace Section

/-- The key of a section in the data. -/
def key : Section → String
  | project => "project"
  | output => "output"
  | html => "html"
  | pdf => "pdf"

/-- Two settings have the same values in a section. -/
def Agree : Section → Settings → Settings → Prop
  | project, s, s' => s.project = s'.project
  | output, s, s' => s.output = s'.output
  | html, s, s' => s.stylesheet = s'.stylesheet
  | pdf, s, s' => s.pdf = s'.pdf

/-- What is read from a value, or what stands for a missing one. -/
def readOr {α : Type} (read : Value → Except ConfigError α) (missing : α) :
    Option Value → Except ConfigError α
  | some v => read v
  | none => .ok missing

/-- A section of settings is what is read from a value, if there is one. -/
def IsRead (sec : Section) (v : Option Value) (s : Settings) : Prop :=
  match sec with
  | project => readOr Settings.projectOf .default v = .ok s.project
  | output => readOr Settings.outputOf .default v = .ok s.output
  | html => readOr Settings.stylesheetOf .null v = .ok s.stylesheet
  | pdf => readOr Settings.pdfOf .default v = .ok s.pdf

end Section

/-- The data has a value for a length of the page that is no number. -/
def Value.GivesNaN (data : Value) (key : String) : Prop :=
  ∃ part v, data.entry? "pdf" = some part ∧ part.entry? key = some v ∧ v.SpellsNaN

namespace Settings

variable {data plain part v : Value} {key : String} {s s' : Settings}

/-! ### Sections -/

theorem eq_of_section? {found : Option Value} (h : section? data key = .ok found) :
    found = data.entry? key := by
  cases data with
  | map entries => exact (Except.ok.inj h).symm
  | list items =>
      rw [section?, section?.mentioned] at h
      split at h
      · cases h
      · exact (Except.ok.inj h).symm
  | tuple items =>
      rw [section?, section?.mentioned] at h
      split at h
      · cases h
      · exact (Except.ok.inj h).symm
  | set items =>
      rw [section?, section?.mentioned] at h
      split at h
      · cases h
      · exact (Except.ok.inj h).symm
  | text t =>
      rw [section?, section?.mentioned] at h
      split at h
      · cases h
      · exact (Except.ok.inj h).symm
  | _ => cases h

theorem readOr_of_sectionOr {α : Type} {read : Value → Except ConfigError α} {missing a : α}
    (h : sectionOr data key read missing = .ok a) :
    Section.readOr read missing (data.entry? key) = .ok a := by
  obtain ⟨found, hfound, h⟩ := exists_of_bind_eq_ok h
  rw [← eq_of_section? hfound]
  cases found with
  | none => exact h
  | some v => exact h

/-- Each section is read from its own entry. -/
theorem isRead_of_ofPlain (h : ofPlain plain = .ok s) (sec : Section) :
    sec.IsRead (plain.entry? sec.key) s := by
  obtain ⟨project, hproject, h⟩ := exists_of_bind_eq_ok h
  obtain ⟨output, houtput, h⟩ := exists_of_bind_eq_ok h
  obtain ⟨stylesheet, hstylesheet, h⟩ := exists_of_bind_eq_ok h
  obtain ⟨pdf, hpdf, h⟩ := exists_of_bind_eq_ok h
  cases h
  cases sec with
  | project => exact readOr_of_sectionOr hproject
  | output => exact readOr_of_sectionOr houtput
  | html => exact readOr_of_sectionOr hstylesheet
  | pdf => exact readOr_of_sectionOr hpdf

theorem agree_of_isRead {sec : Section} {found : Option Value} (h : sec.IsRead found s)
    (h' : sec.IsRead found s') : sec.Agree s s' := by
  cases sec <;> exact Except.ok.inj (h.symm.trans h')

theorem entries_of_isEmpty (h : part.isEmpty = true) : entries part = .ok [] :=
  if_pos h

/-- An empty section is read as the defaults. -/
theorem isRead_default {found : Option Value} (h : ∀ part, found = some part → part.isEmpty = true)
    (sec : Section) : sec.IsRead found .default := by
  cases found with
  | none => cases sec <;> rfl
  | some part =>
      have hentries := entries_of_isEmpty (h part rfl)
      cases sec with
      | project =>
          change projectOf part = _
          rw [projectOf, hentries]
          rfl
      | output =>
          change outputOf part = _
          rw [outputOf, hentries]
          rfl
      | html =>
          change stylesheetOf part = _
          rw [stylesheetOf, hentries]
          rfl
      | pdf =>
          change pdfOf part = _
          rw [pdfOf, hentries]
          rfl

/-! ### Valid settings -/

/-- Page settings that are not refused. -/
structure IsChecked (p : Pdf.Settings) : Prop where
  pageSize : p.pageSize = "a4".toList ∨ p.pageSize = "letter".toList
  fontSize : ¬ p.fontSize ≤ 0
  margin : ¬ p.margin < 0

theorem isChecked_default : IsChecked .default := ⟨.inl rfl, by decide, by decide⟩

theorem isChecked_of_checked {p q : Pdf.Settings} (h : checked p = .ok q) :
    q = p ∧ IsChecked q := by
  rw [checked] at h
  split at h
  · cases h
  next hsize =>
  split at h
  · cases h
  next hfont =>
  split at h
  · cases h
  next hmargin =>
  cases h
  refine ⟨rfl, Decidable.or_iff_not_imp_left.2 ?_, hfont, hmargin⟩
  simpa [pageSizes] using hsize

theorem lookup?_of_entries {es : List (Value × Value)} (h : entries part = .ok es) (key : String) :
    Value.lookup? es key.toList = part.entry? key := by
  unfold entries at h
  split at h
  · next hempty =>
      cases h
      cases part with
      | map entries =>
          rw [List.isEmpty_iff.1 hempty]
          rfl
      | _ => rfl
  · split at h
    · cases h
      rfl
    · cases h

theorem isNaN_of_number {x : Float} (h : number v = .ok x) : x.isNaN = true ↔ v.SpellsNaN := by
  cases v with
  | bool b =>
      cases h
      have hword : (if b = true then (1 : Float) else 0).isNaN = false := by cases b <;> decide
      rw [hword]
      exact iff_of_false Bool.false_ne_true id
  | float y =>
      cases h
      rfl
  | int n =>
      rw [number, Decimal.floatOfInt?] at h
      split at h
      · next hx =>
        cases h
        simp only [Option.ite_none_left_eq_some, Option.some.injEq] at hx
        obtain ⟨-, rfl⟩ := hx
        rw [Decimal.isNaN_toFloat]
        exact iff_of_false Bool.false_ne_true id
      · cases h
  | text t =>
      rw [number] at h
      split at h
      · next hx =>
        cases h
        exact Decimal.isNaN_of_float? hx
      · cases h
  | bytes bs =>
      rw [number] at h
      split at h
      · next hx =>
        split at h
        · cases h
          exact Decimal.isNaN_of_float? hx
        · cases h
      · cases h
  | _ => cases h

theorem isNaN_of_numberOr {es : List (Value × Value)} {missing x : Float}
    (hmissing : missing.isNaN = false) (h : numberOr es key missing = .ok x) :
    x.isNaN = true ↔ ∃ v, Value.lookup? es key.toList = some v ∧ v.SpellsNaN := by
  rw [numberOr] at h
  split at h
  · next v hfound =>
      rw [isNaN_of_number h]
      constructor
      · exact fun hspells => ⟨v, hfound, hspells⟩
      · rintro ⟨w, hw, hspells⟩
        cases hfound.symm.trans hw
        exact hspells
  · next hfound =>
      cases h
      constructor
      · intro hnan
        cases hmissing.symm.trans hnan
      · rintro ⟨w, hw, -⟩
        cases hfound.symm.trans hw

/-- Page settings that are read are checked, and a length is no number if the data says so. -/
theorem isChecked_of_isRead (h : Section.pdf.IsRead (plain.entry? "pdf") s) :
    IsChecked s.pdf ∧ (s.pdf.fontSize.isNaN = true ↔ plain.GivesNaN "font_size") ∧
      (s.pdf.margin.isNaN = true ↔ plain.GivesNaN "margin") := by
  have hgives : ∀ {part}, plain.entry? "pdf" = some part → ∀ {es}, entries part = .ok es →
      ∀ key, plain.GivesNaN key ↔ ∃ v, Value.lookup? es key.toList = some v ∧ v.SpellsNaN := by
    intro part hpart es hes key
    simp [Value.GivesNaN, hpart, lookup?_of_entries hes]
  cases hpart : plain.entry? "pdf" with
  | none =>
      rw [hpart] at h
      have hdefault : Pdf.Settings.default = s.pdf := Except.ok.inj h
      rw [← hdefault]
      have hnone : ∀ key, ¬ plain.GivesNaN key := fun key ⟨_, _, hsome, _⟩ => by
        rw [hpart] at hsome
        cases hsome
      refine ⟨isChecked_default, ?_, ?_⟩
      · simp only [hnone, iff_false]
        decide
      · simp only [hnone, iff_false]
        decide
  | some part =>
      rw [hpart] at h
      obtain ⟨es, hes, h⟩ := exists_of_bind_eq_ok (x := entries part) h
      obtain ⟨fontSize, hfont, h⟩ := exists_of_bind_eq_ok h
      obtain ⟨margin, hmargin, h⟩ := exists_of_bind_eq_ok h
      obtain ⟨heq, hchecked⟩ := isChecked_of_checked h
      refine ⟨hchecked, ?_, ?_⟩
      · rw [heq, hgives hpart hes]
        exact isNaN_of_numberOr (by decide) hfont
      · rw [heq, hgives hpart hes]
        exact isNaN_of_numberOr (by decide) hmargin

theorem lower_format_of_isRead {found : Option Value} (h : Section.output.IsRead found s) :
    lower s.output.format = s.output.format := by
  cases found with
  | none =>
      have hdefault : OutputSettings.default = s.output := Except.ok.inj h
      rw [← hdefault]
      decide
  | some part =>
      obtain ⟨es, -, h⟩ := exists_of_bind_eq_ok (x := entries part) h
      have houtput := Except.ok.inj h
      rw [← houtput]
      exact lower_lower _

/-! ### Changed sections -/

theorem sameKey_text_iff {k : Value} {t : Text} : k.sameKey (.text t) = true ↔ k = .text t := by
  cases k <;> simp [Value.sameKey, Value.keyNumber?]

theorem lookup?_put_of_ne {entries : List (Value × Value)} {t u : Text} (hne : t ≠ u) (v : Value) :
    Value.lookup? (Value.put entries (.text t) v) u = Value.lookup? entries u := by
  have hkey : ∀ k : Value, k.sameKey (.text t) = true → k.sameKey (.text u) = false := by
    intro k hk
    rw [sameKey_text_iff] at hk
    subst hk
    simpa [Value.sameKey] using hne
  simp only [Value.lookup?]
  congr 1
  induction entries with
  | nil =>
      rw [Value.put, List.find?_cons_of_neg (by simp [Value.sameKey, hne])]
  | cons e entries ih =>
      obtain ⟨k, w⟩ := e
      rw [Value.put]
      split
      · next hk =>
        rw [List.find?_cons_of_neg (by simp [hkey k hk]),
          List.find?_cons_of_neg (by simp [hkey k hk])]
      · rw [List.find?_cons, List.find?_cons, ih]

/-- Settings that are loaded are valid, except that a length is no number if the data spells
that.  An entry that is missing or empty leaves its section with the defaults, a section
depends on nothing but its entry, and with another value for one entry all other sections
stay the same. -/
theorem ofValue_valid {env : Environment} (h : ofValue env data = .ok s) :
    ∃ plain, env.substitute data = .ok plain ∧
      (s.pdf.pageSize = "a4".toList ∨ s.pdf.pageSize = "letter".toList) ∧
      (0 < s.pdf.fontSize ↔ ¬ plain.GivesNaN "font_size") ∧
      (0 ≤ s.pdf.margin ↔ ¬ plain.GivesNaN "margin") ∧
      lower s.output.format = s.output.format ∧
      (∀ sec : Section, (∀ part, plain.entry? sec.key = some part → part.isEmpty = true) →
        sec.Agree s .default) ∧
      (∀ (sec : Section) env' data' plain' s', Environment.substitute env' data' = .ok plain' →
        ofValue env' data' = .ok s' → plain'.entry? sec.key = plain.entry? sec.key →
        sec.Agree s s') ∧
      ∀ (sec : Section) v entries s', plain = .map entries →
        ofPlain (.map (Value.put entries (.text sec.key.toList) v)) = .ok s' →
        ∀ other, other ≠ sec → other.Agree s s' := by
  rw [ofValue] at h
  cases hplain : env.substitute data with
  | error e =>
      rw [hplain] at h
      cases h
  | ok plain =>
      rw [hplain] at h
      have hread := isRead_of_ofPlain h
      obtain ⟨hchecked, hfont, hmargin⟩ := isChecked_of_isRead (hread .pdf)
      refine ⟨plain, rfl, hchecked.pageSize, ?_, ?_, lower_format_of_isRead (hread .output),
        fun sec hempty => ?_, fun sec env' data' plain' s' hplain' h' heq => ?_,
        fun sec v entries s' hmap h' other hne => ?_⟩
      · rw [Decimal.zero_lt_iff, ← hfont, Bool.not_eq_true]
        exact and_iff_right hchecked.fontSize
      · rw [Decimal.zero_le_iff, ← hmargin, Bool.not_eq_true]
        exact and_iff_right hchecked.margin
      · exact agree_of_isRead (hread sec) (isRead_default hempty sec)
      · rw [ofValue, hplain'] at h'
        have hread' := isRead_of_ofPlain h' sec
        rw [heq] at hread'
        exact agree_of_isRead (hread sec) hread'
      · have hread' := isRead_of_ofPlain h' other
        have hkeys : sec.key.toList ≠ other.key.toList := by
          revert hne
          cases sec <;> cases other <;> decide
        subst hmap
        rw [Value.entry?, lookup?_put_of_ne hkeys] at hread'
        exact agree_of_isRead (hread other) hread'

/-- Data that spells its font size as no number. -/
def nanSized : Value :=
  .map [(.text "output".toList, .map [(.text "format".toList, .text "XML".toList)]),
    (.text "pdf".toList, .map [(.text "page_size".toList, .text "Letter".toList),
      (.text "font_size".toList, .text " NaN".toList)])]

/-- The settings of that data. -/
def nanSizedSettings : Settings :=
  ⟨.default, ⟨"docs".toList, "xml".toList⟩, .null, ⟨"letter".toList, 0.0 / 0.0, 50⟩⟩

/-- A font size that is spelled as no number passes the check, and is not positive. -/
theorem ofValue_valid_nan :
    ofValue [] nanSized = .ok nanSizedSettings ∧ nanSized.GivesNaN "font_size" ∧
      ¬ 0 < nanSizedSettings.pdf.fontSize ∧ 0 ≤ nanSizedSettings.pdf.margin := by
  have hplain : Environment.substitute [] nanSized = .ok nanSized := by cbv
  have hload : ofValue [] nanSized = .ok nanSizedSettings := by
    rw [ofValue, hplain]
    rfl
  obtain ⟨plain, hsame, -, hfont, hmargin, -⟩ := ofValue_valid hload
  cases hplain.symm.trans hsame
  have hgives : nanSized.GivesNaN "font_size" :=
    ⟨_, _, rfl, rfl, (by decide : Decimal.SpellsNaN " NaN".toList)⟩
  have hnumber : ¬ nanSized.GivesNaN "margin" := by
    rintro ⟨_, _, hpart, hv, -⟩
    cases hpart
    cases hv
  exact ⟨hload, hgives, fun hpos => hfont.1 hpos hgives, hmargin.2 hnumber⟩

end Settings
end DocPress
