import DocPress.Pdf.Layout
import DocPress.Proofs.Pdf.Wrap
import Mathlib.Data.List.Chain

/-!
# Pages

A document is set line by line, and one height is carried along: that of the next
line.  `IsFlow` says what pages look like that were set so, without reference to the
carried height: a page begins at its top, every line stands at a fixed distance below
the one before it, and a page ends only where the next line would stand too low.
`Holds` ties the carried height to the pages; setting a line, leaving a gap and setting
a block keep it (`Holds.setLine`, `Holds.leaveGap`, `Holds.writeBlock`).

The main statement is that the pages of a project hold the lines of its blocks, all of
them and in order, and flow.
-/

namespace DocPress.Pdf

open Text

variable (t : Typesetter) (s : Settings)

/-! ### Lines before they are set -/

/-- A line that has no height yet. -/
structure LooseLine where
  x : Float
  font : Font
  text : Text

/-- What a line was before it was set. -/
def PlacedLine.loose (l : PlacedLine) : LooseLine := ⟨l.x, l.font, l.text⟩

/-- The lines of a text at an indentation. -/
def looseText (font : Font) (indent : Float) (text : Text) : List LooseLine :=
  (wrap (Layout.tooWide t s font indent) text).map fun line => ⟨s.margin + indent, font, line⟩

/-- The lines of a block: those of the label, and then those of the text, if there is
one, one step further in. -/
def TextBlock.looseLines (b : TextBlock) : List LooseLine :=
  looseText t s .label (b.depth.toFloat * indentStep) b.label ++
    if b.text.isEmpty then []
    else looseText t s .body (b.depth.toFloat * indentStep + indentStep) b.text

/-- Lines with a mark on each that says whether a gap stands before it; only the first
may have one. -/
def markFirst (gap : Bool) : List LooseLine → List (LooseLine × Bool)
  | [] => []
  | line :: more => (line, gap) :: more.map (·, false)

/-! ### Lines after they are set -/

/-- A height that is too low for a line. -/
def IsLow (y : Float) : Prop := y > Float.ofInt (t.paper s.pageSize).height - s.margin

/-- The height of the line after one at the given height, with or without a gap. -/
def Settings.below (s : Settings) (y : Float) (gap : Bool) : Float :=
  if gap then y + s.lineHeight + s.lineHeight / 2 else y + s.lineHeight

/-- Pages of lines that are marked if a gap stands before them. -/
structure IsFlow (pages : List (List (PlacedLine × Bool))) : Prop where
  filled : ∀ page ∈ pages, page ≠ []
  /-- A page begins at its top. -/
  top : ∀ page ∈ pages, ∀ line ∈ page.head?, line.1.y = s.margin + s.fontSize
  /-- Lines of a page stand one below the other and not too low. -/
  stacked : ∀ page ∈ pages, page.IsChain fun a b =>
    b.1.y = s.below a.1.y b.2 ∧ ¬ IsLow t s b.1.y
  /-- The first line of the next page would have been too low. -/
  broken : pages.IsChain fun page next => ∀ a ∈ page.getLast?, ∀ b ∈ next.head?,
    IsLow t s (s.below a.1.y b.2)

/-- Marked lines as they were before they were set. -/
def loosened (pages : List (List (PlacedLine × Bool))) : List (LooseLine × Bool) :=
  pages.flatten.map fun line => (line.1.loose, line.2)

/-- The layout holds the given pages, and its height is that of the line after the last
one, if that line has a gap before it as told. -/
structure Holds (l : Layout) (pages : List (List (PlacedLine × Bool)))
    (gap : Bool) : Prop where
  pages_eq : l.pages = pages.map (List.map Prod.fst)
  flow : IsFlow t s pages
  y_eq : ∀ last ∈ pages.flatten.getLast?, l.y = s.below last.1.y gap

/-- Set a line. -/
def setLine (l : Layout) (line : LooseLine) : Layout :=
  l.place t s line.font line.x line.text

variable {t s} {l : Layout} {marked : List (List (PlacedLine × Bool))} {gap : Bool}

/-! ### Pages made longer -/

theorem isFlow_nil (t : Typesetter) (s : Settings) : IsFlow t s [] := by
  constructor <;> simp

/-- A line that would be too low begins a page. -/
theorem IsFlow.newPage (h : IsFlow t s marked) (line : PlacedLine)
    (hy : line.y = s.margin + s.fontSize)
    (hlow : ∀ last ∈ marked.flatten.getLast?, IsLow t s (s.below last.1.y gap)) :
    IsFlow t s (marked ++ [[(line, gap)]]) := by
  constructor
  · intro page hpage
    rcases List.mem_append.1 hpage with hpage | hpage
    · exact h.filled page hpage
    · obtain rfl := List.mem_singleton.1 hpage
      simp
  · intro page hpage first hfirst
    rcases List.mem_append.1 hpage with hpage | hpage
    · exact h.top page hpage first hfirst
    · obtain rfl := List.mem_singleton.1 hpage
      obtain rfl := Option.some.inj hfirst
      exact hy
  · intro page hpage
    rcases List.mem_append.1 hpage with hpage | hpage
    · exact h.stacked page hpage
    · obtain rfl := List.mem_singleton.1 hpage
      exact List.isChain_singleton _
  · refine List.isChain_append.2 ⟨h.broken, List.isChain_singleton _, ?_⟩
    rintro page hpage next hnext last hlast first hfirst
    obtain rfl := Option.some.inj hnext
    obtain rfl := Option.some.inj hfirst
    refine hlow last ?_
    obtain ⟨front, rfl⟩ := List.getLast?_eq_some_iff.1 hpage
    have hne : page ≠ [] := by
      rintro rfl
      cases hlast
    rw [List.flatten_append, List.flatten_singleton, List.getLast?_append_of_ne_nil _ hne]
    exact hlast

/-- A line that is not too low goes on the last page. -/
theorem IsFlow.lengthen {front : List (List (PlacedLine × Bool))} {page : List (PlacedLine × Bool)}
    (h : IsFlow t s (front ++ [page])) (line : PlacedLine)
    (hy : ∀ last ∈ page.getLast?, line.y = s.below last.1.y gap) (hlow : ¬ IsLow t s line.y) :
    IsFlow t s (front ++ [page ++ [(line, gap)]]) := by
  have hmem : page ∈ front ++ [page] := List.mem_append_right _ List.mem_cons_self
  have hhead : (page ++ [(line, gap)]).head? = page.head? :=
    List.head?_append_of_ne_nil _ (h.filled page hmem)
  obtain ⟨hfront, -, hlink⟩ := List.isChain_append.1 h.broken
  have hpages : ∀ {motive : List (PlacedLine × Bool) → Prop},
      (∀ other ∈ front ++ [page], motive other) → motive (page ++ [(line, gap)]) →
      ∀ other ∈ front ++ [page ++ [(line, gap)]], motive other := by
    intro motive hold hnew other hother
    rcases List.mem_append.1 hother with hother | hother
    · exact hold other (List.mem_append_left _ hother)
    · obtain rfl := List.mem_singleton.1 hother
      exact hnew
  refine ⟨hpages h.filled (by simp), hpages h.top ?_, hpages h.stacked ?_, ?_⟩
  · rw [hhead]
    exact h.top page hmem
  · refine List.isChain_append.2 ⟨h.stacked page hmem, List.isChain_singleton _, ?_⟩
    intro last hlast next hnext
    obtain rfl := Option.some.inj hnext
    exact ⟨hy last hlast, hlow⟩
  · refine List.isChain_append.2 ⟨hfront, List.isChain_singleton _, ?_⟩
    intro before hbefore next hnext last hlast first hfirst
    obtain rfl := Option.some.inj hnext
    exact hlink before hbefore page rfl last hlast first (hhead ▸ hfirst)

/-! ### Setting lines -/

theorem addToLast_concat (line : PlacedLine) (front : List (List PlacedLine))
    (page : List PlacedLine) :
    Layout.addToLast line (front ++ [page]) = front ++ [page ++ [line]] := by
  induction front with
  | nil => rfl
  | cons first front ih =>
      rw [List.cons_append, List.cons_append, ← ih]
      cases front <;> rfl

theorem setLine_of_needsPage (h : l.needsPage t s = true) (line : LooseLine) :
    setLine t s l line =
      ⟨l.pages ++ [[⟨line.x, s.margin + s.fontSize, line.font, line.text⟩]],
        s.margin + s.fontSize + s.lineHeight⟩ := by
  rw [setLine, Layout.place, if_pos h]

theorem setLine_of_not_needsPage (h : l.needsPage t s = false) (line : LooseLine) :
    setLine t s l line =
      ⟨Layout.addToLast ⟨line.x, l.y, line.font, line.text⟩ l.pages, l.y + s.lineHeight⟩ := by
  rw [setLine, Layout.place, if_neg (by simp [h])]

theorem needsPage_iff : l.needsPage t s = true ↔ l.pages = [] ∨ IsLow t s l.y := by
  simp [Layout.needsPage, IsLow]

/-- Setting a line keeps what was set and adds that line, with the gap that was left. -/
theorem Holds.setLine (h : Holds t s l marked gap) (line : LooseLine) :
    ∃ marked', Holds t s (setLine t s l line) marked' false ∧
      loosened marked' = loosened marked ++ [(line, gap)] := by
  cases hneeds : l.needsPage t s with
  | true =>
      have hlow : ∀ last ∈ marked.flatten.getLast?, IsLow t s (s.below last.1.y gap) := by
        intro last hlast
        rcases needsPage_iff.1 hneeds with hnil | hlow
        · rw [h.pages_eq, List.map_eq_nil_iff] at hnil
          rw [hnil] at hlast
          cases hlast
        · rwa [← h.y_eq last hlast]
      rw [setLine_of_needsPage hneeds]
      refine ⟨_, ⟨?_, h.flow.newPage ⟨line.x, s.margin + s.fontSize, line.font, line.text⟩ rfl hlow,
        ?_⟩, ?_⟩
      · simp [h.pages_eq]
      · intro last hlast
        simp only [List.flatten_append, List.flatten_singleton, List.getLast?_concat] at hlast
        obtain rfl := Option.some.inj hlast
        rfl
      · simp [loosened, PlacedLine.loose]
  | false =>
      have hneither : ¬ (l.pages = [] ∨ IsLow t s l.y) := by
        rw [← needsPage_iff, hneeds]
        decide
      obtain ⟨hne, hlow⟩ := not_or.1 hneither
      rcases List.eq_nil_or_concat' marked with rfl | ⟨front, page, rfl⟩
      · exact absurd h.pages_eq hne
      have hfilled := h.flow.filled page (List.mem_append_right _ List.mem_cons_self)
      have hy : ∀ last ∈ page.getLast?, l.y = s.below last.1.y gap := by
        intro last hlast
        refine h.y_eq last ?_
        rwa [List.flatten_append, List.flatten_singleton,
          List.getLast?_append_of_ne_nil _ hfilled]
      rw [setLine_of_not_needsPage hneeds]
      refine ⟨_, ⟨?_, h.flow.lengthen ⟨line.x, l.y, line.font, line.text⟩ hy hlow, ?_⟩, ?_⟩
      · rw [h.pages_eq, List.map_append, List.map_singleton, addToLast_concat]
        simp
      · intro last hlast
        simp only [List.flatten_append, List.flatten_singleton, ← List.append_assoc,
          List.getLast?_concat] at hlast
        obtain rfl := Option.some.inj hlast
        rfl
      · simp [loosened, PlacedLine.loose]

theorem Holds.leaveGap (h : Holds t s l marked false) : Holds t s (l.gap s) marked true := by
  refine ⟨h.pages_eq, h.flow, fun last hlast => ?_⟩
  rw [Layout.gap, h.y_eq last hlast]
  rfl

/-- Setting lines one after the other adds all of them; a gap that was left stands
before the first. -/
theorem Holds.setLines (h : Holds t s l marked gap) (lines : List LooseLine) :
    ∃ marked', Holds t s (lines.foldl (Pdf.setLine t s) l) marked' (gap && lines.isEmpty) ∧
      loosened marked' = loosened marked ++ markFirst gap lines := by
  induction lines generalizing l marked gap with
  | nil => exact ⟨marked, by simpa using h, by simp [markFirst]⟩
  | cons line more ih =>
      obtain ⟨marked₁, hline, hloose₁⟩ := h.setLine line
      obtain ⟨marked₂, hmore, hloose₂⟩ := ih hline
      refine ⟨marked₂, by simpa using hmore, ?_⟩
      have hmarks : markFirst false more = more.map (·, false) := by
        cases more <;> rfl
      rw [hloose₂, hloose₁, hmarks, List.append_assoc]
      rfl

/-! ### Blocks -/

theorem write_eq (font : Font) (indent : Float) (l : Layout) (text : Text) :
    l.write t s font indent text = (looseText t s font indent text).foldl (setLine t s) l := by
  rw [Layout.write, looseText, List.foldl_map]
  rfl

theorem writeBlock_eq (l : Layout) (b : TextBlock) :
    l.writeBlock t s b = ((b.looseLines t s).foldl (setLine t s) l).gap s := by
  rw [Layout.writeBlock, TextBlock.looseLines, List.foldl_append, write_eq, write_eq]
  cases b.text.isEmpty <;> rfl

theorem TextBlock.looseLines_ne_nil (t : Typesetter) (s : Settings) (b : TextBlock) :
    b.looseLines t s ≠ [] := by
  refine List.append_ne_nil_of_left_ne_nil ?_ _
  rw [looseText, Ne, List.map_eq_nil_iff]
  exact wrap_ne_nil _ _

/-- Setting a block after a gap adds its lines and leaves a gap again. -/
theorem Holds.writeBlock (h : Holds t s l marked true) (b : TextBlock) :
    ∃ marked', Holds t s (l.writeBlock t s b) marked' true ∧
      loosened marked' = loosened marked ++ markFirst true (b.looseLines t s) := by
  obtain ⟨marked', hlines, hloose⟩ := h.setLines (b.looseLines t s)
  have hsome : (true && (b.looseLines t s).isEmpty) = false := by
    simpa using b.looseLines_ne_nil t s
  rw [hsome] at hlines
  rw [writeBlock_eq]
  exact ⟨marked', hlines.leaveGap, hloose⟩

theorem exists_holds_ofBlocks (t : Typesetter) (s : Settings) (bs : List TextBlock) :
    ∃ marked, Holds t s (Layout.ofBlocks t s bs) marked true ∧
      loosened marked = bs.flatMap fun b => markFirst true (b.looseLines t s) := by
  have hrun : ∀ (l : Layout) (marked : List (List (PlacedLine × Bool))), Holds t s l marked true →
      ∃ marked', Holds t s (bs.foldl (Layout.writeBlock t s) l) marked' true ∧
        loosened marked' =
          loosened marked ++ bs.flatMap fun b => markFirst true (b.looseLines t s) := by
    induction bs with
    | nil => exact fun l marked h => ⟨marked, h, by simp⟩
    | cons b bs ih =>
        intro l marked h
        obtain ⟨marked₁, hblock, hloose₁⟩ := h.writeBlock b
        obtain ⟨marked₂, hmore, hloose₂⟩ := ih _ _ hblock
        exact ⟨marked₂, hmore, by rw [hloose₂, hloose₁, List.flatMap_cons, List.append_assoc]⟩
  have hempty : Holds t s Layout.empty [] true :=
    ⟨rfl, isFlow_nil t s, fun last hlast => nomatch hlast⟩
  obtain ⟨marked, hholds, hloose⟩ := hrun _ _ hempty
  exact ⟨marked, hholds, by simpa [loosened] using hloose⟩

/-! ### Words -/

theorem words_looseLines (t : Typesetter) (s : Settings) (b : TextBlock) :
    (b.looseLines t s).flatMap (fun line => words line.text) = words b.label ++ words b.text := by
  have htext : ∀ font indent text,
      (looseText t s font indent text).flatMap (fun line => words line.text) = words text := by
    intro font indent text
    rw [looseText, List.flatMap_map, words_wrap]
  rw [TextBlock.looseLines, List.flatMap_append, htext]
  split
  · next hempty => rw [List.isEmpty_iff.1 hempty, words_nil]; rfl
  · rw [htext]

/-! ### The pages of a project -/

/-- Pages hold the lines of some blocks. -/
structure IsPagination (t : Typesetter) (s : Settings) (bs : List TextBlock)
    (pages : List (List PlacedLine)) : Prop where
  /-- Block by block, the pages hold the lines of the label and then of the text, each
  in its font and at its indentation. -/
  lines : pages.flatten.map PlacedLine.loose = bs.flatMap (TextBlock.looseLines t s)
  words : pages.flatten.flatMap (fun line => words line.text) =
    bs.flatMap fun b => words b.label ++ words b.text
  exists_page : pages ≠ []
  filled : ∀ page ∈ pages, page ≠ []
  /-- A page begins at its top, and no other line is too low. -/
  top : ∀ page ∈ pages, ∀ line ∈ page.head?, line.y = s.margin + s.fontSize
  inside : ∀ page ∈ pages, ∀ line ∈ page.tail,
    ¬ line.y > Float.ofInt (t.paper s.pageSize).height - s.margin
  /-- With a gap marked before the first line of every block, lines stand at the height
  that comes next after the line before, and a page ends only where that height is too low. -/
  flow : ∃ marked, marked.map (List.map Prod.fst) = pages ∧
    loosened marked = bs.flatMap (fun b => markFirst true (b.looseLines t s)) ∧ IsFlow t s marked

theorem map_fst_markFirst (gap : Bool) (lines : List LooseLine) :
    (markFirst gap lines).map Prod.fst = lines := by
  cases lines with
  | nil => rfl
  | cons line more => simp [markFirst, Function.comp_def]

/-- No line of a page but the first is too low. -/
theorem not_isLow_of_isChain {page : List (PlacedLine × Bool)}
    (h : page.IsChain fun a b => b.1.y = s.below a.1.y b.2 ∧ ¬ IsLow t s b.1.y) :
    ∀ line ∈ page.tail, ¬ IsLow t s line.1.y := by
  induction page with
  | nil => exact fun line hline => nomatch hline
  | cons first more ih =>
      cases more with
      | nil => exact fun line hline => nomatch hline
      | cons next more =>
          obtain ⟨⟨-, hlow⟩, hmore⟩ := List.isChain_cons_cons.1 h
          exact List.forall_mem_cons.2 ⟨hlow, ih hmore⟩

theorem blocks_ne_nil (p : Project) : blocks p ≠ [] := by
  rw [blocks]
  split <;> simp

/-- The pages of a project hold the lines of its blocks, all of them and in order; a
page begins at its top and ends only where the next line would stand too low. -/
theorem pages_flow (t : Typesetter) (s : Settings) (p : Project) :
    IsPagination t s (blocks p) (pages t s p) := by
  obtain ⟨marked, hholds, hloose⟩ := exists_holds_ofBlocks t s (blocks p)
  have hpages : pages t s p = marked.map (List.map Prod.fst) := hholds.pages_eq
  have hflow := hholds.flow
  have hlines : (pages t s p).flatten.map PlacedLine.loose =
      (blocks p).flatMap (TextBlock.looseLines t s) := by
    have hfst := congrArg (List.map Prod.fst) hloose
    simp only [loosened, List.map_map, List.map_flatMap, map_fst_markFirst] at hfst
    rw [hpages, ← List.map_flatten, List.map_map]
    exact hfst
  refine ⟨hlines, ?_, ?_, ?_, ?_, ?_, marked, hpages.symm, hloose, hflow⟩
  · calc (pages t s p).flatten.flatMap (fun line => words line.text)
        = ((pages t s p).flatten.map PlacedLine.loose).flatMap (fun line => words line.text) := by
          rw [List.flatMap_map]
          rfl
      _ = (blocks p).flatMap fun b => words b.label ++ words b.text := by
          rw [hlines, List.flatMap_assoc]
          simp only [words_looseLines]
  · intro hnil
    obtain ⟨first, more, hblocks⟩ := List.exists_cons_of_ne_nil (blocks_ne_nil p)
    rw [hnil, hblocks, List.flatMap_cons] at hlines
    exact first.looseLines_ne_nil t s (List.append_eq_nil_iff.1 hlines.symm).1
  · rw [hpages]
    intro page hpage
    obtain ⟨part, hpart, rfl⟩ := List.mem_map.1 hpage
    simpa using hflow.filled part hpart
  · rw [hpages]
    intro page hpage line hline
    obtain ⟨part, hpart, rfl⟩ := List.mem_map.1 hpage
    rw [List.head?_map] at hline
    obtain ⟨first, hfirst, rfl⟩ := Option.map_eq_some_iff.1 hline
    exact hflow.top part hpart first hfirst
  · rw [hpages]
    intro page hpage line hline
    obtain ⟨part, hpart, rfl⟩ := List.mem_map.1 hpage
    rw [← List.map_tail] at hline
    obtain ⟨other, hother, rfl⟩ := List.mem_map.1 hline
    exact not_isLow_of_isChain (hflow.stacked part hpart) other hother

end DocPress.Pdf
