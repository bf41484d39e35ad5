import DocPress.Html.PageName
import DocPress.Proofs.Html.Frame
import DocPress.Proofs.Text.Trim

/-!
# Links

The links of a page are read off its text.  `anchors` looks for anchors anywhere in the
text; `links` reads tags with their attributes, and knows a value in quotation marks from
what only looks like an attribute in it.

Most markup of a page has no link, whatever its texts are.  Whether that is so can be
computed from the frame alone (`Frame.IsPlain`), because a text neither begins nor ends a
tag or a value; the few places that hold a link are read by themselves (`HasLinks`).
-/

namespace DocPress.Html

open Text

/-! ### Reading links -/

/-- The attribute whose value is a link. -/
def linkAttribute : Text := "href".toList

/-- Where a reader stands in a page. -/
inductive Position where
  /-- Between tags. -/
  | outside
  /-- In a tag, after the given characters of a word. -/
  | tag (word : Text)
  /-- In a value between quotation marks, after the given characters of the value. -/
  | value (quote : Char) (name read : Text)
deriving DecidableEq

namespace Position

/-- The place after one more character. -/
def next : Position → Char → Position
  | outside, c => if c = '<' then tag [] else outside
  | tag word, c =>
      if c = '>' then outside
      else if c = '"' ∨ c = '\'' then value c (word.takeWhile (· ≠ '=')) []
      else if isBlank c then tag []
      else tag (word ++ [c])
  | value quote name read, c => if c = quote then tag [] else value quote name (read ++ [c])

/-- The link that ends at a character.  A value without quotation marks goes to the next
blank or to the end of the tag. -/
def link? : Position → Char → Option Text
  | outside, _ => none
  | tag word, c =>
      if (c = '>' ∨ isBlank c) ∧ foldCase (word.takeWhile (· ≠ '=')) = linkAttribute then
        some ((word.dropWhile (· ≠ '=')).drop 1)
      else none
  | value quote name read, c =>
      if c = quote ∧ foldCase name = linkAttribute then some read else none

/-- The place after a text. -/
def after (place : Position) (t : Text) : Position := t.foldl next place

end Position

/-- The links of a text that is read from a place on. -/
def linksFrom : Position → Text → List Text
  | _, [] => []
  | place, c :: t => (place.link? c).toList ++ linksFrom (place.next c) t

/-- The links of a page: the values of all link attributes in its tags. -/
def links (page : Text) : List Text := linksFrom .outside page

/-- How an anchor begins. -/
def anchorStart : Text := "<a href=\"".toList

/-- The link of the anchor at the beginning of a text. -/
def anchorAt? (t : Text) : Option Text :=
  match after? anchorStart t with
  | none => none
  | some rest =>
      if "\">".toList.isPrefixOf (rest.dropWhile (· ≠ '"')) then some (rest.takeWhile (· ≠ '"'))
      else none

/-- The links of all anchors that stand anywhere in a text. -/
def anchors : Text → List Text
  | [] => []
  | c :: t => (anchorAt? (c :: t)).toList ++ anchors t

/-! ### Places without what was read -/

namespace Position

/-- A place without what was read of a value. -/
def erased : Position → Position
  | value quote name _ => value quote name []
  | place => place

theorem erased_next (place : Position) (c : Char) :
    (place.erased.next c).erased = (place.next c).erased := by
  cases place with
  | outside => rfl
  | tag word => rfl
  | value quote name read =>
      by_cases h : c = quote <;> simp [erased, next, h]

theorem link?_erased (place : Position) (c : Char) :
    place.erased.link? c = none ↔ place.link? c = none := by
  cases place with
  | outside => rfl
  | tag word => rfl
  | value quote name read => simp [erased, link?]

theorem erased_erased (place : Position) : place.erased.erased = place.erased := by
  cases place <;> rfl

theorem erased_after (place : Position) (t : Text) :
    (place.erased.after t).erased = (place.after t).erased := by
  induction t generalizing place with
  | nil => exact erased_erased place
  | cons c t ih =>
      change ((place.erased.next c).after t).erased = ((place.next c).after t).erased
      rw [← ih, erased_next, ih]

end Position

theorem linksFrom_erased (place : Position) (t : Text) :
    linksFrom place.erased t = [] ↔ linksFrom place t = [] := by
  induction t generalizing place with
  | nil => rfl
  | cons c t ih =>
      rw [linksFrom, linksFrom, List.append_eq_nil_iff, List.append_eq_nil_iff, ← ih,
        Position.erased_next, ih, Option.toList_eq_nil_iff, Option.toList_eq_nil_iff,
        Position.link?_erased]

theorem linksFrom_append (place : Position) (a b : Text) :
    linksFrom place (a ++ b) = linksFrom place a ++ linksFrom (place.after a) b := by
  induction a generalizing place with
  | nil => rfl
  | cons c a ih =>
      rw [List.cons_append, linksFrom, linksFrom, ih, List.append_assoc]
      rfl

theorem Position.after_append (place : Position) (a b : Text) :
    place.after (a ++ b) = (place.after a).after b := List.foldl_append

/-- Between tags a text that begins no tag changes nothing. -/
theorem linksFrom_outside {t : Text} (h : '<' ∉ t) :
    linksFrom .outside t = [] ∧ Position.outside.after t = .outside := by
  induction t with
  | nil => exact ⟨rfl, rfl⟩
  | cons c t ih =>
      have hc : c ≠ '<' := fun heq => h (heq ▸ List.mem_cons_self)
      have hnext : Position.outside.next c = .outside := if_neg hc
      obtain ⟨hlinks, hafter⟩ := ih fun hmem => h (List.mem_cons_of_mem _ hmem)
      refine ⟨by rw [linksFrom, hnext, hlinks]; rfl, ?_⟩
      rw [Position.after, List.foldl_cons, hnext]
      exact hafter

/-- In a value everything up to its end is read as it is. -/
theorem linksFrom_value {quote : Char} {t : Text} (h : quote ∉ t) (name read : Text) :
    linksFrom (.value quote name read) t = [] ∧
      (Position.value quote name read).after t = .value quote name (read ++ t) := by
  induction t generalizing read with
  | nil => exact ⟨rfl, by rw [List.append_nil]; rfl⟩
  | cons c t ih =>
      have hc : c ≠ quote := fun heq => h (heq ▸ List.mem_cons_self)
      have hnext : (Position.value quote name read).next c = .value quote name (read ++ [c]) :=
        if_neg hc
      have hlink : (Position.value quote name read).link? c = none := if_neg fun h => hc h.1
      obtain ⟨hlinks, hafter⟩ := ih (fun hmem => h (List.mem_cons_of_mem _ hmem)) (read ++ [c])
      refine ⟨by rw [linksFrom, hlink, hnext, hlinks]; rfl, ?_⟩
      rw [Position.after, List.foldl_cons, hnext]
      exact hafter.trans (by rw [List.append_assoc]; rfl)

/-! ### Frames without links -/

/-- A text in which no anchor begins, not even one that goes on behind it. -/
def Unanchored (t : Text) : Prop :=
  ∀ s ∈ t.tails, s ≠ [] → ¬ anchorStart <+: s ∧ ¬ s <+: anchorStart

instance (t : Text) : Decidable (Unanchored t) := List.decidableBAll _ _

namespace Frame

/-- The place behind a part of a frame that holds no link.  A slot must stand between tags
or in a value. -/
def passPart : Position → Option Text → Option Position
  | place, some t => if linksFrom place t = [] then some (place.after t).erased else none
  | .outside, none => some .outside
  | .tag _, none => none
  | .value quote name _, none => if isMark quote then some (.value quote name []) else none

/-- The place behind a frame that holds no link. -/
def pass (place : Position) (frame : Frame) : Option Position := frame.foldlM passPart place

/-- A frame that holds no link and begins and ends between tags. -/
structure IsPlain (frame : Frame) : Prop where
  passes : frame.pass .outside = some .outside
  unanchored : ∀ t ∈ frame.reduceOption, Unanchored t

instance (frame : Frame) : Decidable frame.IsPlain :=
  decidable_of_iff (frame.pass .outside = some .outside ∧ ∀ t ∈ frame.reduceOption, Unanchored t)
    ⟨fun h => ⟨h.1, h.2⟩, fun h => ⟨h.1, h.2⟩⟩

theorem isPlain_nil : IsPlain [] := ⟨rfl, fun _ h => nomatch h⟩

theorem IsPlain.append {a b : Frame} (ha : IsPlain a) (hb : IsPlain b) : IsPlain (a ++ b) := by
  constructor
  · have hpasses := ha.passes
    rw [pass] at hpasses
    rw [pass, List.foldlM_append, hpasses]
    exact hb.passes
  · intro t ht
    rw [List.reduceOption_append] at ht
    exact (List.mem_append.1 ht).elim (ha.unanchored t) (hb.unanchored t)

theorem IsPlain.flatMap {α : Type} {xs : List α} {f : α → Frame} (h : ∀ x ∈ xs, IsPlain (f x)) :
    IsPlain (xs.flatMap f) := by
  induction xs with
  | nil => exact isPlain_nil
  | cons x xs ih =>
      obtain ⟨hx, hxs⟩ := List.forall_mem_cons.1 h
      exact hx.append (ih hxs)

end Frame

/-! ### Markup without links -/

/-- The frame of pieces that are given one by one, of which a constant is known by its
characters.  In this form a frame is quickly evaluated. -/
inductive Markup.IsFramed : Markup → Frame → Prop where
  | nil : IsFramed [] []
  | fixed {t : Text} {m : Markup} {frame : Frame} (h : IsFramed m frame) :
      IsFramed (fixed (String.ofList t) :: m) (some t :: frame)
  | text {t : Text} {m : Markup} {frame : Frame} (h : IsFramed m frame) :
      IsFramed (.text t :: m) (none :: frame)

theorem Markup.IsFramed.frame_eq {m : Markup} {frame : Frame} (h : m.IsFramed frame) :
    m.frame = frame := by
  induction h with
  | nil => rfl
  | fixed _ ih => rw [Markup.frame_fixed, String.toList_ofList, ih]
  | text _ ih => rw [Markup.frame_text, ih]

theorem isPlain_pieces {m : Markup} {frame : Frame} (h : m.IsFramed frame)
    (hplain : frame.IsPlain) : m.frame.IsPlain := by
  rwa [h.frame_eq]

theorem isPlain_append {m n : Markup} (hm : m.frame.IsPlain) (hn : n.frame.IsPlain) :
    (m ++ n).frame.IsPlain := by
  rw [Markup.frame_append]
  exact hm.append hn

theorem isPlain_flatMap {α : Type} {xs : List α} {f : α → Markup}
    (h : ∀ x ∈ xs, (f x).frame.IsPlain) : (Markup.frame (xs.flatMap f)).IsPlain := by
  rw [Markup.frame_flatMap]
  exact Frame.IsPlain.flatMap h

/-- Where a frame passes, so does its page. -/
theorem linksFrom_of_pass {m : Markup} (place : Position) {place' : Position}
    (h : Frame.pass place.erased m.frame = some place') :
    linksFrom place m.render = [] ∧ (place.after m.render).erased = place' := by
  induction m generalizing place with
  | nil =>
      obtain rfl := Option.some.inj h
      exact ⟨rfl, rfl⟩
  | cons piece m ih =>
      obtain ⟨middle, hmiddle, hrest⟩ := Option.bind_eq_some_iff.1 h
      -- the first piece, read from the place itself and not from what is known of it
      have hpiece : linksFrom place piece.render = [] ∧
          (place.after piece.render).erased = middle := by
        cases piece with
        | fixed t =>
            obtain ⟨hnone, hplace⟩ := Option.ite_none_right_eq_some.1 hmiddle
            obtain rfl := Option.some.inj hplace
            exact ⟨(linksFrom_erased place t).1 hnone, (place.erased_after t).symm⟩
        | text t =>
            cases place with
            | outside =>
                obtain rfl := Option.some.inj hmiddle
                obtain ⟨hlinks, hafter⟩ := linksFrom_outside (mark_notMem_escape (by decide) t)
                exact ⟨hlinks, congrArg Position.erased hafter⟩
            | tag word => cases hmiddle
            | value quote name read =>
                obtain ⟨hmark, hplace⟩ := Option.ite_none_right_eq_some.1 hmiddle
                obtain rfl := Option.some.inj hplace
                obtain ⟨hlinks, hafter⟩ := linksFrom_value (mark_notMem_escape hmark t) name read
                exact ⟨hlinks, congrArg Position.erased hafter⟩
      obtain ⟨hlinks, rfl⟩ := hpiece
      -- the rest begins where the piece has led to, of which the frame knows the erased place
      obtain ⟨hmore, hafter⟩ := ih _ hrest
      change linksFrom place (piece.render ++ Markup.render m) = [] ∧
        (place.after (piece.render ++ Markup.render m)).erased = place'
      rw [linksFrom_append, hlinks, Position.after_append]
      exact ⟨hmore, hafter⟩

/-! ### Texts without anchors -/

theorem unanchored_nil : Unanchored [] := by decide

theorem unanchored_cons {c : Char} {t : Text} : Unanchored (c :: t) ↔
    (¬ anchorStart <+: c :: t ∧ ¬ c :: t <+: anchorStart) ∧ Unanchored t := by
  simp [Unanchored]

/-- Where no anchor begins, none begins if the text goes on. -/
theorem not_anchor_append {t : Text} (h : ¬ anchorStart <+: t ∧ ¬ t <+: anchorStart) (rest : Text) :
    ¬ anchorStart <+: t ++ rest ∧ ¬ t ++ rest <+: anchorStart := by
  constructor
  · intro hstart
    exact (List.prefix_or_prefix_of_prefix hstart (List.prefix_append t rest)).elim h.1 h.2
  · intro hstart
    exact h.2 ((List.prefix_append t rest).trans hstart)

theorem unanchored_append {a b : Text} (ha : Unanchored a) (hb : Unanchored b) :
    Unanchored (a ++ b) := by
  induction a with
  | nil => exact hb
  | cons c a ih =>
      obtain ⟨hc, hrest⟩ := unanchored_cons.1 ha
      exact unanchored_cons.2 ⟨not_anchor_append hc b, ih hrest⟩

theorem unanchored_of_notMem {t : Text} (h : '<' ∉ t) : Unanchored t := by
  induction t with
  | nil => exact unanchored_nil
  | cons c t ih =>
      have hc : c ≠ '<' := fun heq => h (heq ▸ List.mem_cons_self)
      refine unanchored_cons.2 ⟨⟨fun hstart => ?_, fun hstart => ?_⟩, ih fun hmem =>
        h (List.mem_cons_of_mem _ hmem)⟩
      · exact hc (List.cons_prefix_cons.1 hstart).1.symm
      · exact hc (List.cons_prefix_cons.1 hstart).1

theorem anchorAt?_eq_none {t : Text} (h : ¬ anchorStart <+: t) : anchorAt? t = none := by
  rw [anchorAt?, after?_eq_none h]

theorem anchors_append {t : Text} (h : Unanchored t) (rest : Text) :
    anchors (t ++ rest) = anchors rest := by
  induction t with
  | nil => rfl
  | cons c t ih =>
      obtain ⟨hc, ht⟩ := unanchored_cons.1 h
      have hnone := anchorAt?_eq_none (not_anchor_append hc rest).1
      rw [List.cons_append] at hnone ⊢
      rw [anchors, hnone, ih ht]
      rfl

theorem unanchored_render {m : Markup} (h : ∀ t ∈ m.frame.reduceOption, Unanchored t) :
    Unanchored m.render := by
  induction m with
  | nil => exact unanchored_nil
  | cons piece m ih =>
      cases piece with
      | fixed t =>
          obtain ⟨ht, hrest⟩ := List.forall_mem_cons.1 h
          exact unanchored_append ht (ih hrest)
      | text t =>
          have ht := unanchored_of_notMem (mark_notMem_escape (c := '<') (by decide) t)
          exact unanchored_append ht (ih h)

/-- An anchor gives its link. -/
theorem anchors_anchor {link : Text} (hquote : '"' ∉ link) (htag : '<' ∉ link) (rest : Text) :
    anchors (anchorStart ++ (link ++ ("\">".toList ++ rest))) = link :: anchors rest := by
  have hlink : ∀ c ∈ link, decide (c ≠ '"') = true := fun c hc => by
    simpa using fun heq : c = '"' => hquote (heq ▸ hc)
  have hat : anchorAt? (anchorStart ++ (link ++ ("\">".toList ++ rest))) = some link := by
    rw [anchorAt?, after?_append]
    dsimp only
    rw [List.dropWhile_append_of_pos hlink, List.takeWhile_append_of_pos hlink]
    simp
  -- behind its first character the anchor is a text in which none begins
  have hinner : Unanchored ("a href=\"".toList ++ (link ++ "\">".toList)) := by
    refine unanchored_of_notMem fun hmem => ?_
    rcases List.mem_append.1 hmem with hmem | hmem
    · exact absurd hmem (by decide)
    · exact (List.mem_append.1 hmem).elim htag (absurd · (by decide))
  have hrest := anchors_append hinner rest
  simp only [List.append_assoc] at hrest
  change (anchorAt? (anchorStart ++ (link ++ ("\">".toList ++ rest)))).toList ++
    anchors ("a href=\"".toList ++ (link ++ ("\">".toList ++ rest))) = _
  rw [hat, hrest]
  rfl

/-! ### Parts of a page -/

/-- A part of a page that begins and ends between tags, with its anchors and its links. -/
structure HasLinks (t : Text) (anchored linked : List Text) : Prop where
  anchors_eq : ∀ rest, anchors (t ++ rest) = anchored ++ anchors rest
  links_eq : links t = linked
  after_eq : Position.outside.after t = .outside

theorem HasLinks.append {a b : Text} {anchored linked anchored' linked' : List Text}
    (ha : HasLinks a anchored linked) (hb : HasLinks b anchored' linked') :
    HasLinks (a ++ b) (anchored ++ anchored') (linked ++ linked') := by
  constructor
  · intro rest
    rw [List.append_assoc, ha.anchors_eq, hb.anchors_eq, List.append_assoc]
  · have hlinks := linksFrom_append .outside a b
    rw [ha.after_eq] at hlinks
    exact hlinks.trans (congr (congrArg _ ha.links_eq) hb.links_eq)
  · rw [Position.after_append, ha.after_eq, hb.after_eq]

theorem HasLinks.flatMap {α : Type} {xs : List α} {f : α → Text} {anchored linked : α → List Text}
    (h : ∀ x ∈ xs, HasLinks (f x) (anchored x) (linked x)) :
    HasLinks (xs.flatMap f) (xs.flatMap anchored) (xs.flatMap linked) := by
  induction xs with
  | nil => exact ⟨fun _ => rfl, rfl, rfl⟩
  | cons x xs ih =>
      obtain ⟨hx, hxs⟩ := List.forall_mem_cons.1 h
      exact hx.append (ih hxs)

theorem HasLinks.anchors {t : Text} {anchored linked : List Text} (h : HasLinks t anchored linked) :
    anchors t = anchored := by
  have hnil := h.anchors_eq []
  rwa [List.append_nil, show Html.anchors [] = [] from rfl, List.append_nil] at hnil

/-- The page of a plain frame has no links. -/
theorem Frame.IsPlain.hasLinks {m : Markup} (h : m.frame.IsPlain) : HasLinks m.render [] [] := by
  obtain ⟨hlinks, hafter⟩ := linksFrom_of_pass .outside h.passes
  refine ⟨fun rest => anchors_append (unanchored_render h.unanchored) rest, hlinks, ?_⟩
  cases hplace : Position.outside.after m.render with
  | outside => rfl
  | tag word => rw [hplace] at hafter; cases hafter
  | value quote name read => rw [hplace] at hafter; cases hafter

/-- An anchor has its own link. -/
theorem hasLinks_anchor {link : Text} (hquote : '"' ∉ link) (htag : '<' ∉ link) :
    HasLinks (anchorStart ++ (link ++ "\">".toList)) [link] [link] := by
  obtain ⟨hlinks, hafter⟩ := linksFrom_value hquote linkAttribute []
  -- the place where the value begins
  have hstart : linksFrom .outside anchorStart = [] ∧
      Position.outside.after anchorStart = .value '"' linkAttribute [] := by decide
  constructor
  · intro rest
    rw [List.append_assoc, List.append_assoc, anchors_anchor hquote htag]
    rfl
  · rw [links, linksFrom_append, hstart.1, hstart.2, linksFrom_append, hlinks, hafter]
    rfl
  · rw [Position.after_append, hstart.2, Position.after_append, hafter]
    rfl

example : links "<a id=\" href=\" href='b.html'> href=\"c\"".toList = ["b.html".toList] := by
  decide

end DocPress.Html
