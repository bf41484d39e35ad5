import DocPress.Yaml.Token

/-!
# Nodes

The tree of a document.  An alias stands for the node of its anchor, so the
tree holds that node again.  An alias inside the node it names would make the
tree endless; such a place is kept as a loop.
-/

namespace DocPress.Yaml

/-- A node of a document. -/
inductive Node where
  /-- A scalar; `open` ones have no tag and take their kind from their text. -/
  | scalar (tag : Option Text) (text : Text) (plain : Bool)
  | sequence (tag : Option Text) (items : List Node)
  | mapping (tag : Option Text) (entries : List (Node × Node))
  | loop
deriving Inhabited

/-- What is known while nodes are read: the tokens left, the nodes of anchors
(none while the node is being read) and the prefixes of tag handles. -/
structure Reading where
  tokens : List Token
  anchors : List (Text × Option Node)
  handles : List (Text × Text)

/-- A reader of nodes. -/
abbrev NodeReader := StateT Reading Option

namespace NodeReader

/-- Refuse the document. -/
def refuse {α : Type} : NodeReader α := fun _ => none

/-- The next token. -/
def peek : NodeReader Token := do return ((← get).tokens.head?).getD .streamEnd

/-- Pass the next token. -/
def pass : NodeReader Unit := modify fun r => { r with tokens := r.tokens.tail }

/-- Pass the next token if it is the given one. -/
def accept (t : Token) : NodeReader Bool := do
  if (← peek) = t then do
    pass
    return true
  else return false

/-- A node without text. -/
def empty : Node := .scalar none [] true

/-- The tag that a written tag stands for. -/
def resolveTag (t : TagName) : NodeReader Text := do
  match t.handle with
  | none => return t.suffix
  | some handle =>
      match (← get).handles.lookup handle with
      | some start => return start ++ t.suffix
      | none => refuse

/-- The anchor and the tag before a node, in either order. -/
def properties : NodeReader (Option Text × Option Text) := do
  match ← peek with
  | .anchor name =>
      pass
      match ← peek with
      | .tag t =>
          pass
          return (some name, some (← resolveTag t))
      | _ => return (some name, none)
  | .tag t =>
      pass
      match ← peek with
      | .anchor name =>
          pass
          return (some name, some (← resolveTag t))
      | _ => return (none, some (← resolveTag t))
  | _ => return (none, none)

/-- Remember the node of an anchor. -/
def remember (anchor : Option Text) (n : Option Node) : NodeReader Unit :=
  match anchor with
  | none => pure ()
  | some name => modify fun r => { r with anchors := (name, n) :: r.anchors }

/-- A tag that leaves the kind open counts as none. -/
def fixedTag (tag : Option Text) : Option Text := if tag = some ['!'] then none else tag

/-- Read a collection whose anchor may be used inside it. -/
def collect (anchor : Option Text) (body : NodeReader Node) : NodeReader Node := do
  remember anchor none
  let n ← body
  remember anchor (some n)
  return n

mutual

/-- A node.  `block` allows blocks, `indentless` entries without a block of
their own. -/
def node : Nat → Bool → Bool → NodeReader Node
  | 0, _, _ => refuse
  | fuel + 1, block, indentless => do
      match ← peek with
      | .alias name =>
          pass
          match (← get).anchors.lookup name with
          | some (some n) => return n
          | some none => return .loop
          | none => refuse
      | _ =>
          let (anchor, tag) ← properties
          match anchor with
          | some name => if ((← get).anchors.lookup name).isSome then refuse
          | none => pure ()
          let fixed := fixedTag tag
          match ← peek with
          | .scalar t plain =>
              pass
              let n := Node.scalar fixed t (plain || tag = some ['!'])
              remember anchor (some n)
              return n
          | .flowSequence =>
              pass
              collect anchor do return .sequence fixed (← flowItems fuel true)
          | .flowMapping =>
              pass
              collect anchor do return .mapping fixed (← flowPairs fuel true)
          | .blockSequence =>
              if block then
                pass
                collect anchor do return .sequence fixed (← blockItems fuel)
              else refuse
          | .blockMapping =>
              if block then
                pass
                collect anchor do return .mapping fixed (← blockPairs fuel)
              else refuse
          | .entry =>
              if indentless then collect anchor do return .sequence fixed (← looseItems fuel)
              else bare anchor tag
          | _ => bare anchor tag

/-- The items of a block sequence up to its end. -/
def blockItems : Nat → NodeReader (List Node)
  | 0 => refuse
  | fuel + 1 => do
      if ← accept .entry then
        let t ← peek
        let item ← if t = .entry || t = .blockEnd then pure empty else node fuel true false
        return item :: (← blockItems fuel)
      else if ← accept .blockEnd then return []
      else refuse

/-- The items of a sequence without a block of its own. -/
def looseItems : Nat → NodeReader (List Node)
  | 0 => refuse
  | fuel + 1 => do
      if ← accept .entry then
        let t ← peek
        let item ← if t = .entry || t = .key || t = .value || t = .blockEnd then pure empty
          else node fuel true false
        return item :: (← looseItems fuel)
      else return []

/-- The entries of a block mapping up to its end. -/
def blockPairs : Nat → NodeReader (List (Node × Node))
  | 0 => refuse
  | fuel + 1 => do
      if ← accept .key then
        let key ← blockPart fuel
        let value ← if ← accept .value then blockPart fuel else pure empty
        return (key, value) :: (← blockPairs fuel)
      else if ← accept .blockEnd then return []
      else refuse

/-- A key or value of a block mapping, which may be missing. -/
def blockPart : Nat → NodeReader Node
  | 0 => refuse
  | fuel + 1 => do
      let t ← peek
      if t = .key || t = .value || t = .blockEnd then return empty else node fuel true true

/-- The items of a bracketed sequence up to its end. -/
def flowItems : Nat → Bool → NodeReader (List Node)
  | 0, _ => refuse
  | fuel + 1, first => do
      if ← accept .flowSequenceEnd then return []
      else
        if !first then
          if !(← accept .flowEntry) then refuse
        if ← accept .flowSequenceEnd then return []
        else if ← accept .key then
          let key ← flowPart fuel .flowSequenceEnd
          let value ← flowValue fuel .flowSequenceEnd
          return .mapping none [(key, value)] :: (← flowItems fuel false)
        else
          let item ← node fuel false false
          return item :: (← flowItems fuel false)

/-- The entries of a bracketed mapping up to its end. -/
def flowPairs : Nat → Bool → NodeReader (List (Node × Node))
  | 0, _ => refuse
  | fuel + 1, first => do
      if ← accept .flowMappingEnd then return []
      else
        if !first then
          if !(← accept .flowEntry) then refuse
        if ← accept .flowMappingEnd then return []
        else if ← accept .key then
          let key ← flowPart fuel .flowMappingEnd
          let value ← flowValue fuel .flowMappingEnd
          return (key, value) :: (← flowPairs fuel false)
        else
          let key ← node fuel false false
          return (key, empty) :: (← flowPairs fuel false)

/-- The value after a colon in brackets; without a colon it is empty. -/
def flowValue : Nat → Token → NodeReader Node
  | 0, _ => refuse
  | fuel + 1, ending => do
      if ← accept .value then
        let t ← peek
        if t = .flowEntry || t = ending then return empty else node fuel false false
      else return empty

/-- A key in brackets, which may be missing. -/
def flowPart : Nat → Token → NodeReader Node
  | 0, _ => refuse
  | fuel + 1, ending => do
      let t ← peek
      if t = .value || t = .flowEntry || t = ending then return empty else node fuel false false

/-- A node that consists of its anchor and tag only. -/
def bare (anchor tag : Option Text) : NodeReader Node := do
  if anchor.isNone && tag.isNone then refuse
  else
    let n := Node.scalar (fixedTag tag) [] true
    remember anchor (some n)
    return n

end

/-- The prefixes of tags that need no declaration. -/
def defaultHandles : List (Text × Text) :=
  [("!".toList, "!".toList), ("!!".toList, "tag:yaml.org,2002:".toList)]

/-- The directives before a document: the declared tag handles, and whether a
version was given.  At most `fuel` are read. -/
def directives : Nat → List (Text × Text) → Bool → NodeReader (List (Text × Text))
  | 0, _, _ => refuse
  | fuel + 1, handles, versioned => do
      match ← peek with
      | .directive (.version major _) =>
          pass
          if versioned || major != 1 then refuse else directives fuel handles true
      | .directive (.tag handle uri) =>
          pass
          if (handles.lookup handle).isSome then refuse
          else directives fuel ((handle, uri) :: handles) versioned
      | .directive .other =>
          pass
          directives fuel handles versioned
      | _ => return handles

/-- Pass the marks at the end of a document.  At most `fuel` are passed. -/
def skipEnds : Nat → NodeReader Unit
  | 0 => pure ()
  | fuel + 1 => do if ← accept .documentEnd then skipEnds fuel

/-- The only document of a text; nothing if it holds none. -/
def document (fuel : Nat) : NodeReader (Option Node) := do
  match ← peek with
  | .streamEnd => return none
  | .directive _ => explicit
  | .documentStart => explicit
  | _ =>
      modify fun r => { r with handles := defaultHandles }
      let n ← node fuel true false
      ending
      return some n
where
  /-- A document after its directives and opening mark. -/
  explicit : NodeReader (Option Node) := do
    let declared ← directives fuel [] false
    modify fun r => { r with handles := declared ++ defaultHandles }
    if !(← accept .documentStart) then refuse
    let n ← match ← peek with
      | .directive _ => pure empty
      | .documentStart => pure empty
      | .documentEnd => pure empty
      | .streamEnd => pure empty
      | _ => node fuel true false
    ending
    return some n
  /-- Nothing may follow the document. -/
  ending : NodeReader Unit := do
    skipEnds fuel
    if (← peek) != .streamEnd then refuse

end NodeReader

/-- The tree of a text with one document: refused if it is not well formed, and
without a node if it is empty. -/
def readNode? (t : Text) : Option (Option Node) := do
  let tokens ← tokensOf? t
  let (n, _) ← (NodeReader.document (4 * tokens.length + 10)).run ⟨tokens, [], []⟩
  some n

end DocPress.Yaml
