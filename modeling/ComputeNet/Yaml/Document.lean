import ComputeNet.Yaml.Token

/-!
# Documents

The tree of a YAML text that holds one document. An alias stays an alias and is looked up among
the anchors when its node is needed, so that a node may hold an alias of itself.
-/

namespace ComputeNet.Yaml

/-- A node of a document. -/
inductive Node where
  /-- A text value; `plain` if it is in no quotes and no block. -/
  | scalar (text : String) (plain : Bool) (tag : Option String)
  | sequence (items : List Node)
  | mapping (entries : List (Node × Node))
  /-- The node that the anchor in a slot stands before. -/
  | alias (slot : Nat)

/-- A node that an anchor stands before. -/
structure Anchored where
  slot : Nat
  /-- How many anchors are before this one. -/
  position : Nat
  node : Node

/-- A tree and its anchors. -/
structure Document where
  root : Node
  anchors : List Anchored

/-- The node of an empty place. -/
def Node.blank : Node := .scalar "" true none

namespace Document

/-- The node that an anchor in a slot stands before; the last such anchor counts. -/
def anchored? (d : Document) (slot : Nat) : Option Node :=
  let found := d.anchors.filter (·.slot = slot)
  (found.find? fun a => found.all fun b => b.position ≤ a.position).map (·.node)

/-- The node itself, or the one that an alias stands for. -/
def resolve (d : Document) : Node → Node
  | .alias slot => (d.anchored? slot).getD .blank
  | n => n

end Document

/-- What is known while the nodes of a document are read. -/
structure Reader where
  tokens : List Token
  /-- The names in use and their slots. -/
  names : List (String × Nat)
  anchors : List Anchored
  /-- How many anchors have been read. -/
  anchorCount : Nat

namespace Reader

/-- A step of reading nodes. -/
abbrev Read := StateT Reader (Except Error)

/-- The next token, which is not taken. -/
def peek : Read (Option Token) := return (← get).tokens.head?

/-- Takes the next token. -/
def skip : Read Unit := modify fun r => { r with tokens := r.tokens.tail }

/-- The next token is one of these, or there is none where `none` is among them. -/
def nextIs (ts : List (Option Token)) : Read Bool := return (← peek) ∈ ts

/-- A name comes into use. Its slot is the count of the names in use before it, so that a slot is
used again when a name is. -/
def bindName (name : String) : Read (Nat × Nat) := modifyGet fun r =>
  let slot := r.names.length
  let names := (name, slot) :: r.names.filter (·.1 ≠ name)
  ((slot, r.anchorCount), { r with names, anchorCount := r.anchorCount + 1 })

/-- The node of an anchor is read. -/
def keep (place : Nat × Nat) (node : Node) : Read Unit :=
  modify fun r => { r with anchors := ⟨place.1, place.2, node⟩ :: r.anchors }

/-- What stands before the content of a node. -/
structure Properties where
  /-- The slot and the position of the anchor. -/
  anchor : Option (Nat × Nat)
  tag : Option String

/-- An anchor, if one comes next. -/
def readAnchor : Read (Option (Nat × Nat)) := do
  match ← peek with
  | some (.anchor name) =>
    skip
    some <$> bindName name
  | _ => return none

/-- A tag, if one comes next. -/
def readTag : Read (Option String) := do
  match ← peek with
  | some (.tag name) =>
    skip
    return some name
  | _ => return none

/-- The properties of a node: an anchor and a tag at most, in either order. -/
def properties : Read Properties := do
  let before ← readTag
  let anchor ← readAnchor
  let after ← if before.isNone && anchor.isSome then readTag else pure none
  return { anchor, tag := before.or after }

/-- The tag that counts for a scalar with a text; a lone `!` is none. -/
def Properties.scalarTag (p : Properties) : Option String := p.tag.filter (· ≠ "!")

mutual

/-- A node. `inBlock` says that block collections may begin here, `bare` that list entries may
follow without one. -/
def node (fuel : Nat) (inBlock bare : Bool) : Read Node := do
  match fuel with
  | 0 => throw .unexpectedToken
  | fuel + 1 =>
    match ← peek with
    | some (.alias name) =>
      skip
      match (← get).names.lookup name with
      | some slot => return .alias slot
      | none => throw (.unknownAnchor name)
    | _ =>
      let p ← properties
      let n ← content fuel inBlock bare p
      if let some place := p.anchor then keep place n
      return n

/-- The content of a node, which may be empty after its properties. -/
def content (fuel : Nat) (inBlock bare : Bool) (p : Properties) : Read Node := do
  match fuel with
  | 0 => throw .unexpectedToken
  | fuel + 1 =>
    match ← peek, inBlock, bare with
    | some .blockEntry, _, true => .sequence <$> bareItems fuel
    | some (.scalar text plain), _, _ =>
      skip
      return .scalar text plain p.scalarTag
    | some .flowSequenceStart, _, _ =>
      skip
      .sequence <$> flowItems fuel true
    | some .flowMappingStart, _, _ =>
      skip
      .mapping <$> flowEntries fuel true
    | some .blockSequenceStart, true, _ =>
      skip
      .sequence <$> blockItems fuel
    | some .blockMappingStart, true, _ =>
      skip
      .mapping <$> blockEntries fuel
    | _, _, _ =>
      if p.anchor.isSome || p.tag.isSome then return .scalar "" true p.tag
      else throw .unexpectedToken

/-- The items of a block sequence. -/
def blockItems (fuel : Nat) : Read (List Node) := do
  match fuel with
  | 0 => throw .unexpectedToken
  | fuel + 1 =>
    match ← peek with
    | some .blockEntry =>
      skip
      let item ← if ← nextIs [some .blockEntry, some .blockEnd] then pure .blank
        else node fuel true false
      return item :: (← blockItems fuel)
    | some .blockEnd =>
      skip
      return []
    | _ => throw .unexpectedToken

/-- The items of a sequence that is indented no further than the key before it. -/
def bareItems (fuel : Nat) : Read (List Node) := do
  match fuel with
  | 0 => throw .unexpectedToken
  | fuel + 1 =>
    match ← peek with
    | some .blockEntry =>
      skip
      let item ← if ← nextIs [some .blockEntry, some .key, some .value, some .blockEnd] then
          pure .blank
        else node fuel true false
      return item :: (← bareItems fuel)
    | _ => return []

/-- The entries of a block mapping. -/
def blockEntries (fuel : Nat) : Read (List (Node × Node)) := do
  match fuel with
  | 0 => throw .unexpectedToken
  | fuel + 1 =>
    match ← peek with
    | some .key =>
      skip
      let key ← blockPart fuel
      let value ← if ← nextIs [some .value] then do
          skip
          blockPart fuel
        else pure .blank
      return (key, value) :: (← blockEntries fuel)
    | some .blockEnd =>
      skip
      return []
    | _ => throw .unexpectedToken

/-- A key or a value of a block mapping. -/
def blockPart (fuel : Nat) : Read Node := do
  match fuel with
  | 0 => throw .unexpectedToken
  | fuel + 1 =>
    if ← nextIs [some .key, some .value, some .blockEnd] then pure .blank else node fuel true true

/-- The items of a flow sequence, up to and with its end. An item with a key is a mapping of one
entry. -/
def flowItems (fuel : Nat) (isFirst : Bool) : Read (List Node) := do
  match fuel with
  | 0 => throw .unexpectedToken
  | fuel + 1 =>
    if ← nextIs [some .flowSequenceEnd] then
      skip
      return []
    if !isFirst then
      if ← nextIs [some .flowEntry] then skip else throw .unexpectedToken
    match ← peek with
    | some .flowSequenceEnd =>
      skip
      return []
    | some .key =>
      skip
      let key ← if ← nextIs [some .value, some .flowEntry, some .flowSequenceEnd] then do
          -- An empty key takes the token after it along.
          skip
          pure .blank
        else node fuel false false
      let value ← flowValue fuel .flowSequenceEnd
      return .mapping [(key, value)] :: (← flowItems fuel false)
    | _ =>
      let item ← node fuel false false
      return item :: (← flowItems fuel false)

/-- The entries of a flow mapping, up to and with its end. An entry may lack its value. -/
def flowEntries (fuel : Nat) (isFirst : Bool) : Read (List (Node × Node)) := do
  match fuel with
  | 0 => throw .unexpectedToken
  | fuel + 1 =>
    if ← nextIs [some .flowMappingEnd] then
      skip
      return []
    if !isFirst then
      if ← nextIs [some .flowEntry] then skip else throw .unexpectedToken
    match ← peek with
    | some .flowMappingEnd =>
      skip
      return []
    | some .key =>
      skip
      let key ← if ← nextIs [some .value, some .flowEntry, some .flowMappingEnd] then pure .blank
        else node fuel false false
      let value ← flowValue fuel .flowMappingEnd
      return (key, value) :: (← flowEntries fuel false)
    | _ =>
      let key ← node fuel false false
      return (key, .blank) :: (← flowEntries fuel false)

/-- A value in a flow collection, which may be missing. -/
def flowValue (fuel : Nat) (ending : Token) : Read Node := do
  match fuel with
  | 0 => throw .unexpectedToken
  | fuel + 1 =>
    if ← nextIs [some .value] then
      skip
      if ← nextIs [some .flowEntry, some ending] then pure .blank else node fuel false false
    else pure .blank

end

/-- The root of the first document. A document marker may stand before it. -/
def root (fuel : Nat) : Read Node := do
  if ← nextIs [none] then return .blank
  if ← nextIs [some .documentStart] then
    skip
    if ← nextIs [some .documentStart, some .documentEnd, none] then return .blank
  node fuel true false

end Reader

/-- The document of a text that holds no second one. Each token is looked at a few times at most,
which bounds the depth of reading. -/
def Document.ofText (s : String) : Except Error Document := do
  let tokens ← Token.ofText s
  let (root, r) ← Reader.root (8 * tokens.length + 8) ⟨tokens, [], [], 0⟩
  if r.tokens.all (· = .documentEnd) then return { root, anchors := r.anchors }
  else throw .furtherDocument

end ComputeNet.Yaml
