import Localizer.Yaml.Tag
import Localizer.Yaml.Token

/-!
# YAML nodes

The tokens of a document form a graph of scalars, sequences and mappings. A node is known by its
number, so that a name that an anchor gives to it can lead to it from several places, and also from
inside the collection that it names. A text holds one document at most.
-/

namespace Localizer.Yaml

open Text

/-- The number of a node in its document. -/
abbrev NodeId := Nat

/-- What a node holds. -/
inductive Content where
  | scalar (text : Message)
  | sequence (items : List NodeId)
  | mapping (entries : List (NodeId × NodeId))
  deriving Repr, DecidableEq

/-- A node of a document. -/
structure Node where
  tag : Tag
  content : Content
  deriving Repr, DecidableEq

/-- How far the tokens of a document have been read. -/
structure Parsing where
  tokens : List Token
  /-- The nodes by their numbers; a collection that is being read is empty. -/
  nodes : Array Node := #[]
  /-- The nodes that have names. -/
  anchors : List (Text × NodeId) := []
  /-- The abbreviations for tags. -/
  handles : List (Text × Text) := [("!".toList, "!".toList), ("!!".toList, tagDomain)]
  /-- How many collections are being read. -/
  depth : Nat := 0

/-- Reading from tokens. -/
abbrev Parser := StateT Parsing (Except Error)

/-- How many collections may be nested. -/
def maxDepth : Nat := 488

namespace Parser

/-- The token that comes next; a place from which the text cannot be read is an error. -/
def peek : Parser Token := do
  match (← get).tokens with
  | [] => throw .malformed
  | .bad e :: _ => throw e
  | t :: _ => return t

/-- Pass over a token. -/
def skip : Parser Unit := modify fun s => { s with tokens := s.tokens.tail }

/-- Pass over a token if it is the expected one. -/
def accept (t : Token) : Parser Bool := do
  if (← peek) = t then
    skip
    return true
  return false

/-- An error of form. -/
def fail {α : Type} : Parser α := throw .malformed

/-- Add a node, under a name if it has one. -/
def add (anchor : Option Text) (n : Node) : Parser NodeId := do
  let id := (← get).nodes.size
  modify fun s => { s with
    nodes := s.nodes.push n
    anchors := match anchor with
      | some name => (name, id) :: s.anchors
      | none => s.anchors }
  return id

/-- The node of a name. -/
def lookup (name : Text) : Parser NodeId := do
  match (← get).anchors.find? (·.1 == name) with
  | some (_, id) => return id
  | none => fail

/-- Add a collection, read what it holds, and put that into it. -/
def collection (anchor : Option Text) (tag : Tag) (empty : Content) (read : Parser Content) :
    Parser NodeId := do
  let id ← add anchor ⟨tag, empty⟩
  if maxDepth ≤ (← get).depth then throw .tooDeep
  modify fun s => { s with depth := s.depth + 1 }
  let content ← read
  modify fun s => { s with
    depth := s.depth - 1
    nodes := s.nodes.setIfInBounds id ⟨tag, content⟩ }
  return id

/-- The full text of a tag. -/
def expand (handle : Option Text) (suffix : Text) : Parser Text := do
  match handle with
  | none => return suffix
  | some h =>
    match (← get).handles.find? (·.1 == h) with
    | some (_, expansion) => return expansion ++ suffix
    | none => fail

/-- The anchor and the tag in front of a node, in either order. -/
def properties : Parser (Option Text × Option Text) := do
  match ← peek with
  | .anchor name =>
    skip
    match ← peek with
    | .tag handle suffix =>
      skip
      return (some name, some (← expand handle suffix))
    | _ => return (some name, none)
  | .tag handle suffix =>
    skip
    match ← peek with
    | .anchor name =>
      skip
      return (some name, some (← expand handle suffix))
    | _ => return (none, some (← expand handle suffix))
  | _ => return (none, none)

/-- The tag of a collection: the given one unless it leaves the choice open. -/
def collectionTag (given : Option Text) (default : Tag) : Tag :=
  match given with
  | some t => if t = ['!'] then default else .ofText t
  | none => default

/-- The tag of a scalar: the given one unless it leaves the choice open. -/
def scalarTag (given : Option Text) (text : Message) (plain : Bool) : Tag :=
  match given with
  | some t => if t = ['!'] then .ofPlain text.view else .ofText t
  | none => if plain then .ofPlain text.view else .str

/-- A name must be new in its document. -/
def checkNew (anchor : Option Text) : Parser Unit := do
  if let some name := anchor then
    if (← get).anchors.any (·.1 == name) then fail

/-- The scalar that stands where nothing stands. -/
def emptyScalar : Parser NodeId := add none ⟨.null, .scalar []⟩

/-- The empty scalar that an anchor or a tag without content stands for. -/
def emptyNode (anchor tag : Option Text) : Parser NodeId :=
  if anchor.isNone && tag.isNone then fail
  else add anchor ⟨scalarTag tag [] true, .scalar []⟩

/-- A mapping of one entry, which a pair in a flow sequence stands for. -/
def pairMapping (read : Parser (NodeId × NodeId)) : Parser NodeId :=
  collection none .map (.mapping []) do return .mapping [← read]

mutual

/-- A node; `block` where a block collection may stand, and `indentless` where a sequence may stand
that is not indented. -/
def node : Nat → (block indentless : Bool) → Parser NodeId
  | 0, _, _ => fail
  | fuel + 1, block, indentless => do
    if let .alias name ← peek then
      skip
      return ← lookup name
    let (anchor, tag) ← properties
    let start ← peek
    checkNew anchor
    let sequence := collection anchor (collectionTag tag .seq) (.sequence [])
    let mapping := collection anchor (collectionTag tag .map) (.mapping [])
    match start with
    | .scalar text plain =>
      skip
      add anchor ⟨scalarTag tag text plain, .scalar text⟩
    | .flowSequence =>
      skip
      sequence do return .sequence (← flowItems fuel true)
    | .flowMapping =>
      skip
      mapping do return .mapping (← flowEntries fuel true)
    | .blockEntry =>
      if indentless then sequence do return .sequence (← indentlessItems fuel)
      else emptyNode anchor tag
    | .blockSequence =>
      if block then
        skip
        sequence do return .sequence (← blockItems fuel)
      else emptyNode anchor tag
    | .blockMapping =>
      if block then
        skip
        mapping do return .mapping (← blockEntries fuel)
      else emptyNode anchor tag
    | _ => emptyNode anchor tag

/-- The entries of a block sequence up to its end. -/
def blockItems : Nat → Parser (List NodeId)
  | 0 => fail
  | fuel + 1 => do
    if ← accept .blockEntry then
      let n ← match ← peek with
        | .blockEntry => emptyScalar
        | .blockEnd => emptyScalar
        | _ => node fuel true false
      return n :: (← blockItems fuel)
    else if ← accept .blockEnd then return []
    else fail

/-- The entries of a sequence that is not indented. -/
def indentlessItems : Nat → Parser (List NodeId)
  | 0 => fail
  | fuel + 1 => do
    if ← accept .blockEntry then
      let n ← match ← peek with
        | .blockEntry => emptyScalar
        | .key => emptyScalar
        | .value => emptyScalar
        | .blockEnd => emptyScalar
        | _ => node fuel true false
      return n :: (← indentlessItems fuel)
    else return []

/-- A key or value of a block mapping, empty before the next mark. -/
def blockPart : Nat → Parser NodeId
  | 0 => fail
  | fuel + 1 => do
    match ← peek with
    | .key => emptyScalar
    | .value => emptyScalar
    | .blockEnd => emptyScalar
    | _ => node fuel true true

/-- The entries of a block mapping up to its end. -/
def blockEntries : Nat → Parser (List (NodeId × NodeId))
  | 0 => fail
  | fuel + 1 => do
    if ← accept .blockEnd then return []
    else if ← accept .key then
      let k ← blockPart fuel
      let v ← if ← accept .value then blockPart fuel else emptyScalar
      return (k, v) :: (← blockEntries fuel)
    else fail

/-- A key or value in a flow collection, empty before one of the given marks. -/
def flowPart : Nat → (stops : List Token) → Parser NodeId
  | 0, _ => fail
  | fuel + 1, stops => do
    if stops.contains (← peek) then emptyScalar else node fuel false false

/-- A key after its mark and its value in a flow collection that ends with a mark. -/
def flowPair : Nat → (stop : Token) → Parser (NodeId × NodeId)
  | 0, _ => fail
  | fuel + 1, stop => do
    let k ← flowPart fuel [.value, .flowEntry, stop]
    let v ← if ← accept .value then flowPart fuel [.flowEntry, stop] else emptyScalar
    return (k, v)

/-- The entries of a flow sequence up to its end; a pair stands for a mapping with one entry. -/
def flowItems : Nat → (first : Bool) → Parser (List NodeId)
  | 0, _ => fail
  | fuel + 1, first => do
    if ← accept .flowSequenceEnd then return []
    unless first do
      unless ← accept .flowEntry do fail
    if ← accept .flowSequenceEnd then return []
    let n ← if ← accept .key then pairMapping (flowPair fuel .flowSequenceEnd)
      else node fuel false false
    return n :: (← flowItems fuel false)

/-- The entries of a flow mapping up to its end; a key may stand without a value. -/
def flowEntries : Nat → (first : Bool) → Parser (List (NodeId × NodeId))
  | 0, _ => fail
  | fuel + 1, first => do
    if ← accept .flowMappingEnd then return []
    unless first do
      unless ← accept .flowEntry do fail
    if ← accept .flowMappingEnd then return []
    let e ← if ← accept .key then flowPair fuel .flowMappingEnd
      else do
        let k ← node fuel false false
        pure (k, ← emptyScalar)
    return e :: (← flowEntries fuel false)

end

/-! ## The document -/

/-- Read the directives before a document. The version is given once at most and must be one of the
first major version, and an abbreviation is given once. -/
def directives : Nat → (version : Bool) → (handles : List (Text × Text)) →
    Parser (List (Text × Text))
  | 0, _, _ => fail
  | fuel + 1, version, handles => do
    match ← peek with
    | .directive d =>
      skip
      match d with
      | .version major =>
        if version || major != 1 then fail else directives fuel true handles
      | .tag handle expansion =>
        if handles.any (·.1 == handle) then fail
        else directives fuel version (handles ++ [(handle, expansion)])
      | .other => directives fuel version handles
    | _ => return handles

/-- Pass over marks that end a document. -/
def skipEnds : Nat → Parser Unit
  | 0 => fail
  | fuel + 1 => do if ← accept .documentEnd then skipEnds fuel

/-- The content of a document that starts with a mark. -/
def explicitContent (fuel : Nat) : Parser NodeId := do
  match ← peek with
  | .directive _ => emptyScalar
  | .documentStart => emptyScalar
  | .documentEnd => emptyScalar
  | .streamEnd => emptyScalar
  | _ => node fuel true false

/-- The only document of a text; none if the text has no content. Another document is refused when
its directives have been read, so that an error in them comes first. -/
def document (fuel : Nat) : Parser (Option NodeId) := do
  let content ← match ← peek with
    | .streamEnd => return none
    | .directive _ => explicit
    | .documentStart => explicit
    | _ => node fuel true false
  skipEnds fuel
  if (← peek) = .streamEnd then return some content
  let _ ← directives fuel false []
  fail
where
  /-- Directives, the mark of a document, and its content. -/
  explicit : Parser NodeId := do
    let own ← directives fuel false []
    modify fun s => { s with handles := own ++ s.handles }
    if ← accept .documentStart then explicitContent fuel else fail

end Parser

/-- The nodes of a text and the topmost one of its only document, none if the text has no
content. -/
def parse (s : Text) : Except Error (Option NodeId × Array Node) := do
  let tokens := tokenize s
  let (root, state) ← (Parser.document (4 * tokens.length + 4)).run { tokens }
  return (root, state.nodes)

end Localizer.Yaml
