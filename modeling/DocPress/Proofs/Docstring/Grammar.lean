import DocPress.Docstring.Grammar.Rules
import DocPress.Proofs.Docstring.Places

/-!
# Where statements begin

A function is read only where a statement may begin: at the very beginning of the text and
behind a token that shapes the lines.  Two tables say which rules are followed only there
(`Rule.atStart`) and behind which rules such a place is reached (`Rule.givesStart`).  `leaves`
follows an item from the first table to the second, and `isSound_of_isPlain` checks the whole
grammar: its rules keep to the tables, and its actions to the shape of classes and functions.
-/

namespace DocPress.Docstring

/-- Rules that are followed only where a statement may begin. -/
def Rule.atStart : Rule → Bool
  | .stmt r => match r with
      | .file | .statements | .statement | .compoundStmt | .functionDef | .functionDefRaw => true
      | _ => false
  | _ => false

/-- Rules behind which a statement may begin. -/
def Rule.givesStart : Rule → Bool
  | .stmt r => match r with
      | .statements | .statement | .simpleStmts | .compoundStmt | .block | .decorators
      | .classDef | .classDefRaw | .functionDef | .functionDefRaw | .ifStmt | .elifStmt
      | .elseBlock | .whileStmt | .forStmt | .withStmt | .tryStmt | .exceptBlock
      | .exceptStarBlock | .finallyBlock => true
      | _ => false
  | .pattern r => match r with
      | .matchStmt | .caseBlock => true
      | _ => false
  | _ => false

/-- Rules that do not look for mistakes. -/
def Rule.isPlain : Rule → Bool
  | .mistake _ => false
  | _ => true

/-- Whether a statement may begin behind a rule, given whether one may begin before it; no
answer where the rule asks for more than is known. -/
def Rule.leaves (r : Rule) (start : Bool) : Option Bool :=
  if r.isPlain && (start || !r.atStart) then some r.givesStart else none

/-- The same for an item that is repeated any number of times, given what it does once. -/
def repeatedLeaves (once : Bool → Option Bool) (start : Bool) : Option Bool :=
  if start && once true == some true then some true else (once false).map fun _ => false

/-- The forms of classes and functions. -/
def Form.isDeclaration (f : Form) : Bool := f = .functionDef || f = .classDef

/-- Alternatives that make a node of another form than these. -/
def Alt.isStep : Alt → Bool
  | .mk _ (.make form _) => !form.isDeclaration
  | _ => false

/-- Whether an action keeps to the shape of classes and functions.  Both have three parts; the
first of a function is its name, which stands behind its keywords, and the first of these where
a statement may begin.  The steps of a chain are neither. -/
def Action.isSound (start : Bool) (items : List Peg) : Action → Bool
  | .make .functionDef parts =>
      start && parts.length = 3 && match items with
        | .tok first :: .kind .name :: _ => first = "def" && parts.head? = some 1
        | .kind .async :: .tok second :: .kind .name :: _ => second = "def" && parts.head? = some 2
        | _ => false
  | .make .classDef parts => parts.length = 3
  | .chain => match items with
      | [_, .many (.choice steps)] => steps.all Alt.isStep
      | _ => false
  | _ => true

mutual

/-- Whether a statement may begin behind an item, given whether one may begin before it. -/
def Peg.leaves : Peg → Bool → Option Bool
  | .tok _, _ | .soft _, _ | .anySoft, _ | .must _, _ => some false
  | .kind k, _ => some k.isLayout
  | .rule r, start | .quiet r, start => r.leaves start
  -- without the search for mistakes such an item never matches
  | .mistake _, _ => some true
  | .choice alts, start => altsLeave alts start
  | .opt p, start => (p.leaves start).map (start && ·)
  | .many p, start => repeatedLeaves p.leaves start
  | .many1 p, start => (p.leaves start).bind (repeatedLeaves p.leaves)
  | .sep _ p, start => (p.leaves start).bind fun _ => (p.leaves false).map fun _ => false
  | .ahead p, start | .deny p, start => (p.leaves start).map fun _ => start
  | .commit, start => some start

/-- The same for alternatives. -/
def altsLeave : List Alt → Bool → Option Bool
  | [], _ => some true
  | .mk items action :: others, start =>
      (itemsLeave items start).bind fun gives =>
        (altsLeave others start).bind fun gives' =>
          if action.isSound start items then some (gives && gives') else none

/-- The same for the items of an alternative. -/
def itemsLeave : List Peg → Bool → Option Bool
  | [], start => some start
  | p :: more, start => (p.leaves start).bind (itemsLeave more)

end

/-- Whether the alternatives of a rule keep to the tables. -/
def Rule.isSound (r : Rule) : Bool :=
  match altsLeave (grammar r) r.atStart with
  | some gives => gives || !r.givesStart
  | none => false

/-- The grammar keeps to the tables. -/
theorem isSound_of_isPlain {r : Rule} (h : r.isPlain = true) : r.isSound = true := by
  cases r with
  | stmt r => cases r <;> rfl
  | pattern r => cases r <;> rfl
  | expr r => cases r <;> rfl
  | mistake r => cases h

theorem Rule.leaves_eq_some {r : Rule} {start gives : Bool} (h : r.leaves start = some gives) :
    r.isPlain = true ∧ (r.atStart = true → start = true) ∧ r.givesStart = gives := by
  unfold Rule.leaves at h
  split at h
  · next hr =>
      obtain ⟨hplain, hstart⟩ := Bool.and_eq_true_iff.1 hr
      exact ⟨hplain, fun hat => by simpa [hat] using hstart, Option.some.inj h⟩
  · cases h

end DocPress.Docstring
