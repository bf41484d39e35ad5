import DocPress.Html.Markup
import Mathlib.Data.List.ReduceOption

/-!
# Frames

A page is a frame, the fixed markup with slots between, and the texts that fill the
slots in order (`render_eq_fill`).  A text is escaped where it fills a slot: the escaped
form has none of the characters that make markup (`marks_escape`), and the text can be
read back from it (`unescape_escape`).  So all markup of a page is that of its frame
(`marks_render`).
-/

namespace DocPress.Html

/-! ### Escaped texts -/

/-- The characters that make markup: those around tags and those around values. -/
def isMark (c : Char) : Bool := c == '<' || c == '>' || c == '"' || c == '\''

/-- The characters of a page that make markup, in order. -/
def marks (page : Text) : Text := page.filter isMark

/-- The text with every reference to a character replaced by that character. -/
def unescape : Text → Text
  | [] => []
  | '&' :: 'a' :: 'm' :: 'p' :: ';' :: rest => '&' :: unescape rest
  | '&' :: 'l' :: 't' :: ';' :: rest => '<' :: unescape rest
  | '&' :: 'g' :: 't' :: ';' :: rest => '>' :: unescape rest
  | '&' :: '#' :: '3' :: '4' :: ';' :: rest => '"' :: unescape rest
  | '&' :: '#' :: '3' :: '9' :: ';' :: rest => '\'' :: unescape rest
  | c :: rest => c :: unescape rest

/-- A character that is not written as it is is one of five. -/
theorem escapeChar_cases (c : Char) :
    (c = '&' ∨ c = '<' ∨ c = '>' ∨ c = '\'' ∨ c = '"') ∨
      (escapeChar c = [c] ∧ c ≠ '&' ∧ isMark c = false) := by
  by_cases h : c = '&' ∨ c = '<' ∨ c = '>' ∨ c = '\'' ∨ c = '"'
  · exact .inl h
  · simp only [not_or] at h
    obtain ⟨hamp, hlt, hgt, hsingle, hdouble⟩ := h
    exact .inr ⟨by simp [escapeChar, hamp, hlt, hgt, hsingle, hdouble], hamp,
      by simp [isMark, hlt, hgt, hsingle, hdouble]⟩

theorem unescape_cons {c : Char} (h : c ≠ '&') (rest : Text) :
    unescape (c :: rest) = c :: unescape rest := by
  rw [unescape.eq_7]
  all_goals
    intros
    contradiction

theorem unescape_escapeChar (c : Char) (rest : Text) :
    unescape (escapeChar c ++ rest) = c :: unescape rest := by
  rcases escapeChar_cases c with h | ⟨hself, hamp, -⟩
  · rcases h with rfl | rfl | rfl | rfl | rfl <;> rfl
  · rw [hself, List.singleton_append, unescape_cons hamp]

theorem marks_escapeChar (c : Char) : marks (escapeChar c) = [] := by
  rcases escapeChar_cases c with h | ⟨hself, -, hmark⟩
  · rcases h with rfl | rfl | rfl | rfl | rfl <;> decide
  · simp [hself, marks, hmark]

/-- A text is read back from its escaped form. -/
theorem unescape_escape (t : Text) : unescape (escape t) = t := by
  induction t with
  | nil => rfl
  | cons c t ih =>
      change unescape (escapeChar c ++ escape t) = c :: t
      rw [unescape_escapeChar, ih]

@[simp] theorem marks_append (a b : Text) : marks (a ++ b) = marks a ++ marks b :=
  List.filter_append ..

/-- An escaped text has no markup. -/
theorem marks_escape (t : Text) : marks (escape t) = [] := by
  induction t with
  | nil => rfl
  | cons c t ih =>
      change marks (escapeChar c ++ escape t) = []
      rw [marks_append, marks_escapeChar, ih, List.nil_append]

theorem mark_notMem_escape {c : Char} (h : isMark c = true) (t : Text) : c ∉ escape t := by
  intro hmem
  have hmarks : c ∈ marks (escape t) := List.mem_filter.2 ⟨hmem, h⟩
  rw [marks_escape] at hmarks
  cases hmarks

/-! ### Frames and their slots -/

/-- Fixed markup with slots, which are the places without a text, between. -/
abbrev Frame := List (Option Text)

namespace Frame

/-- How many slots a frame has. -/
def slots (frame : Frame) : Nat := frame.count none

/-- A frame with its slots filled in order. -/
def fill : Frame → List Text → Text
  | [], _ => []
  | some t :: frame, forms => t ++ fill frame forms
  | none :: frame, form :: forms => form ++ fill frame forms
  | none :: _, [] => []

end Frame

/-- The part of a frame that a piece is. -/
def Piece.part : Piece → Option Text
  | fixed t => some t
  | text _ => none

/-- The text that a piece shows. -/
def Piece.text? : Piece → Option Text
  | fixed _ => none
  | text t => some t

namespace Markup

/-- The frame of a page. -/
def frame (m : Markup) : Frame := m.map Piece.part

/-- The texts of a page in order. -/
def texts (m : Markup) : List Text := m.filterMap Piece.text?

variable (m n : Markup)

@[simp] theorem frame_nil : frame [] = [] := rfl

@[simp] theorem frame_fixed (s : String) : frame (fixed s :: m) = some s.toList :: frame m := rfl

@[simp] theorem frame_text (t : Text) : frame (.text t :: m) = none :: frame m := rfl

@[simp] theorem texts_nil : texts [] = [] := rfl

@[simp] theorem texts_fixed (s : String) : texts (fixed s :: m) = texts m := rfl

@[simp] theorem texts_text (t : Text) : texts (.text t :: m) = t :: texts m := rfl

@[simp] theorem frame_append : frame (m ++ n) = frame m ++ frame n := List.map_append

@[simp] theorem texts_append : texts (m ++ n) = texts m ++ texts n := List.filterMap_append

theorem frame_flatMap {α : Type} (xs : List α) (f : α → Markup) :
    frame (xs.flatMap f) = xs.flatMap fun x => frame (f x) := List.map_flatMap

theorem texts_flatMap {α : Type} (xs : List α) (f : α → Markup) :
    texts (xs.flatMap f) = xs.flatMap fun x => texts (f x) := List.filterMap_flatMap

/-- A page is its frame filled with its texts, each escaped. -/
theorem render_eq_fill : m.render = Frame.fill m.frame (m.texts.map escape) := by
  induction m with
  | nil => rfl
  | cons piece m ih =>
      cases piece with
      | fixed t => exact congrArg (t ++ ·) ih
      | text t => exact congrArg (escape t ++ ·) ih

theorem slots_frame : Frame.slots m.frame = m.texts.length := by
  induction m with
  | nil => rfl
  | cons piece m ih =>
      cases piece with
      | fixed t => exact (List.count_cons_of_ne (Option.some_ne_none t)).trans ih
      | text t => exact List.count_cons_self.trans (congrArg (· + 1) ih)

/-- All markup of a page is in its frame. -/
theorem marks_render : marks m.render = marks (m.frame.reduceOption.flatten) := by
  induction m with
  | nil => rfl
  | cons piece m ih =>
      cases piece with
      | fixed t =>
          change marks (t ++ render m) = marks (t ++ (frame m).reduceOption.flatten)
          rw [marks_append, ih, marks_append]
      | text t =>
          change marks (escape t ++ render m) = marks (frame m).reduceOption.flatten
          rw [marks_append, marks_escape, ih, List.nil_append]

/-- Every text of a page stands in it escaped. -/
theorem escape_infix_render {m : Markup} {t : Text} (h : t ∈ m.texts) : escape t <:+: m.render := by
  obtain ⟨piece, hpiece, heq⟩ := List.mem_filterMap.1 h
  cases piece with
  | fixed u => cases heq
  | text u =>
      obtain rfl := Option.some.inj heq
      obtain ⟨a, b, rfl⟩ := List.append_of_mem hpiece
      refine ⟨render a, render b, ?_⟩
      simp [render, Piece.render]

end Markup
end DocPress.Html
