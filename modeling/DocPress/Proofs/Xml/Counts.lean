import DocPress.Proofs.Comment.Normal
import DocPress.Proofs.Comment.TagWord
import DocPress.Proofs.Xml.RoundTrip
import Mathlib.Data.Bool.AllAny

/-!
# Entities counted after a round trip

A project that is written and read keeps its files, declarations, fields and methods.
Its parameters are found again in the texts of its methods, which lack the characters
that a document cannot hold.  Unified line ends change nothing that a comment says
(`normalize_unifyLineEnds`), but some of the lost characters are blanks or line ends and
part words.  The main statement is that the number of parameters is kept exactly if the
word that marks a parameter stands as often in the cleaned texts as in the texts.
-/

namespace DocPress

open Text

/-! ### Entities of the normal form -/

/-- A project whose methods have the parameters that their blocks describe. -/
def Project.IsAttached (p : Project) : Prop :=
  ∀ m ∈ p.methods, m.parameters = attachedParameters m.documentation

/-- The raw texts of the blocks of all methods. -/
def Project.methodTexts (p : Project) : List Text :=
  p.methods.filterMap fun m => m.documentation.map Block.rawText

/-- How often comments hold the word that marks a parameter. -/
def Comment.paramWords (raws : List Text) : Nat :=
  (raws.flatMap fun raw => words (Comment.normalize raw)).count ('@' :: Block.paramTag)

open Comment Xml

/-- The parameters that blocks give their methods are marked in the texts of these blocks. -/
theorem Project.IsAttached.parameters_eq {p : Project} (h : p.IsAttached) :
    p.counts.parameters = paramWords p.methodTexts := by
  have hblock (b : Block) : b.parameters.length =
      (words (Comment.normalize b.rawText)).count ('@' :: Block.paramTag) := by
    rw [Block.parameters, List.length_map]
    exact b.length_tagValues (by decide) (List.all_eq_true.1 (by decide))
  have hmethods (ms : List Method)
      (hms : ∀ m ∈ ms, m.parameters = attachedParameters m.documentation) :
      (ms.flatMap Method.parameters).length =
        paramWords (ms.filterMap fun m => m.documentation.map Block.rawText) := by
    induction ms with
    | nil => rfl
    | cons m ms ih =>
        obtain ⟨hm, hrest⟩ := List.forall_mem_cons.1 hms
        rw [List.flatMap_cons, List.length_append, ih hrest, hm]
        cases hdoc : m.documentation with
        | none => simp [hdoc, attachedParameters]
        | some b => simp [hdoc, attachedParameters, hblock, paramWords]
  exact hmethods p.methods h

theorem Project.classes_xmlNormal (p : Project) :
    p.xmlNormal.classes = p.classes.map TypeDecl.xmlNormal := by
  simp only [Project.classes, Project.xmlNormal, List.flatMap_map, List.map_flatMap]
  rfl

theorem Project.methods_xmlNormal (p : Project) :
    p.xmlNormal.methods = p.methods.map Method.xmlNormal := by
  simp only [Project.methods, Project.classes_xmlNormal, List.flatMap_map, List.map_flatMap]
  rfl

theorem Project.fields_xmlNormal (p : Project) :
    p.xmlNormal.classes.flatMap TypeDecl.fields =
      (p.classes.flatMap TypeDecl.fields).map Field.xmlNormal := by
  simp only [Project.classes_xmlNormal, List.flatMap_map, List.map_flatMap]
  rfl

theorem Project.methodTexts_xmlNormal (p : Project) :
    p.xmlNormal.methodTexts = p.methodTexts.map stored := by
  rw [Project.methodTexts, Project.methods_xmlNormal, List.filterMap_map, Project.methodTexts,
    List.map_filterMap]
  refine List.filterMap_congr fun m _ => ?_
  simp only [Function.comp_apply, Method.xmlNormal, Method.make, Option.map_map]
  rfl

theorem Project.isAttached_xmlNormal (p : Project) : p.xmlNormal.IsAttached := by
  intro m hm
  rw [Project.methods_xmlNormal] at hm
  obtain ⟨m, -, rfl⟩ := List.mem_map.1 hm
  rfl

/-- Mended line ends hide no parameter. -/
theorem paramWords_stored (raws : List Text) :
    paramWords (raws.map stored) = paramWords (raws.map clean) := by
  simp only [paramWords, List.flatMap_map, stored, normalize_unifyLineEnds]

/-- The normal form has as many files, declarations, fields and methods, and the parameters
of its cleaned texts. -/
theorem Project.counts_xmlNormal (p : Project) :
    p.xmlNormal.counts =
      { p.counts with parameters := paramWords (p.methodTexts.map clean) } := by
  have hparameters : p.xmlNormal.counts.parameters = paramWords (p.methodTexts.map clean) := by
    rw [p.isAttached_xmlNormal.parameters_eq, Project.methodTexts_xmlNormal, paramWords_stored]
  have hfiles : p.xmlNormal.files.length = p.files.length := List.length_map _
  have hclasses : p.xmlNormal.classes.length = p.classes.length := by
    rw [Project.classes_xmlNormal, List.length_map]
  have hfields : (p.xmlNormal.classes.flatMap TypeDecl.fields).length =
      (p.classes.flatMap TypeDecl.fields).length := by
    rw [Project.fields_xmlNormal, List.length_map]
  have hmethods : p.xmlNormal.methods.length = p.methods.length := by
    rw [Project.methods_xmlNormal, List.length_map]
  rw [← hparameters, Project.counts, hfiles, hclasses, hfields, hmethods, Project.counts]

namespace Xml

/-- Writing a project and reading it back keeps the number of its files, declarations,
fields and methods.  The number of its parameters is kept exactly if the word that marks a
parameter is found in the cleaned texts of its methods as often as in the texts; so it is
kept where a document can hold these texts. -/
theorem counts_parse_render (p : Project) (hp : p.IsAttached) :
    ∃ q, parse (render p) = .ok q ∧
      q.counts.files = p.counts.files ∧ q.counts.classes = p.counts.classes ∧
      q.counts.fields = p.counts.fields ∧ q.counts.methods = p.counts.methods ∧
      (q.counts = p.counts ↔
        paramWords (p.methodTexts.map clean) = paramWords p.methodTexts) ∧
      ((∀ t ∈ p.methodTexts, IsWritable t) → q.counts = p.counts) := by
  have hcounts := p.counts_xmlNormal
  have hkept : p.xmlNormal.counts = p.counts ↔
      paramWords (p.methodTexts.map clean) = paramWords p.methodTexts := by
    rw [hcounts, ← hp.parameters_eq]
    exact ⟨congrArg Counts.parameters, fun h => by rw [h]⟩
  refine ⟨p.xmlNormal, parse_render_eq p, ?_, ?_, ?_, ?_, hkept, fun hwritable => ?_⟩
  · rw [hcounts]
  · rw [hcounts]
  · rw [hcounts]
  · rw [hcounts]
  · have hclean : p.methodTexts.map clean = p.methodTexts :=
      (List.map_congr_left fun t ht => clean_of_isWritable (hwritable t ht)).trans (List.map_id _)
    exact hkept.2 (by rw [hclean])

/-- A project of one method, with a vertical tab between the words of its comment that
end the description and begin a parameter. -/
def tabbed : Project :=
  ⟨"P".toList, [⟨"A.java".toList, "A.java".toList, "java".toList,
    [⟨"A".toList, "class".toList, none, [],
      [Method.make "m".toList [] [] (some ⟨"Adds.\x0b@param a first".toList⟩)]⟩]⟩]⟩

/-- Without the tab the two words are one and mark nothing: the parameter is lost. -/
theorem counts_parse_render_tabbed :
    tabbed.IsAttached ∧ tabbed.counts.parameters = 1 ∧
      ∃ q, parse (render tabbed) = .ok q ∧ q.counts.methods = tabbed.counts.methods ∧
        q.counts ≠ tabbed.counts := by
  have hattached : tabbed.IsAttached := fun m hm => by
    obtain rfl := List.mem_singleton.1 hm
    rfl
  have hone : paramWords tabbed.methodTexts = 1 := by decide
  have hzero : paramWords (tabbed.methodTexts.map clean) = 0 := by decide
  obtain ⟨q, hq, -, -, -, hmethods, hkept, -⟩ := counts_parse_render tabbed hattached
  refine ⟨hattached, hattached.parameters_eq.trans hone, q, hq, hmethods, fun heq => ?_⟩
  have hsame := hkept.1 heq
  rw [hone, hzero] at hsame
  cases hsame

end Xml
end DocPress
