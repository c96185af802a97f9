import ComputeNet.Yaml.Scalar

/-!
# Tokens

The parts of a YAML text: scalars, indicators, and the starts and ends of block collections, which
indentation gives away. What is a key is known only when its `:` is met, at the latest on the same
line and within 1024 characters. Until then the place of the key among the tokens is remembered,
and a key token is put there afterwards.
-/

namespace ComputeNet.Yaml

/-- A part of a text. -/
inductive Token where
  | documentStart
  | documentEnd
  | blockSequenceStart
  | blockMappingStart
  | blockEnd
  | flowSequenceStart
  | flowSequenceEnd
  | flowMappingStart
  | flowMappingEnd
  | blockEntry
  | flowEntry
  | key
  | value
  | alias (name : String)
  | anchor (name : String)
  | tag (name : String)
  /-- A text value; `plain` if it is in no quotes and no block. -/
  | scalar (text : String) (plain : Bool)
deriving DecidableEq

/-- A place where a key may have begun. -/
structure KeyPlace where
  /-- How many tokens are before it. -/
  position : Nat
  start : Glyph
  /-- Only a key can stand here. -/
  required : Bool

/-- What is known while the tokens of a text are read. -/
structure Scanner where
  tokens : Array Token
  /-- The column after that of the innermost block collection. -/
  margin : Nat
  /-- The margins around it. -/
  outer : List Nat
  /-- Where a key may have begun: in the innermost flow collection first, outside of all last. -/
  keys : List (Option KeyPlace)
  /-- A key may begin with the next token. -/
  keyAllowed : Bool

namespace Scanner

def initial : Scanner := ⟨#[], 0, [], [none], true⟩

def inFlow (s : Scanner) : Bool := 1 < s.keys.length

/-- The token follows. -/
def emit (s : Scanner) (t : Token) : Scanner := { s with tokens := s.tokens.push t }

/-- Blanks, comments and line ends before a token are passed over. A tab is no blank where a key
could begin a line. -/
def skipGaps (inFlow : Bool) (inComment keyAllowed : Bool) : List Glyph → Bool × List Glyph
  | [] => (keyAllowed, [])
  | g :: gs =>
    if g.isBreak then skipGaps inFlow false (keyAllowed || !inFlow) gs
    else if inComment || g.char = ' ' || (g.char = '\t' && (inFlow || !keyAllowed)) then
      skipGaps inFlow inComment keyAllowed gs
    else if g.char = '#' then skipGaps inFlow true keyAllowed gs
    else (keyAllowed, g :: gs)

/-- Block collections end that begin right of a column. -/
def closeBlocks (s : Scanner) (column : Nat) : Scanner :=
  if s.inFlow then s else close s.tokens s.margin s.outer
where
  /-- One block after the other. -/
  close (tokens : Array Token) (margin : Nat) : List Nat → Scanner
    | next :: outer =>
      if column + 1 < margin then close (tokens.push .blockEnd) next outer
      else { s with tokens, margin, outer := next :: outer }
    | [] => { s with tokens, margin, outer := [] }

/-- All block collections end. -/
def closeAllBlocks (s : Scanner) : Scanner :=
  if s.inFlow then s
  else { s with
    tokens := s.tokens ++ (s.outer.map fun _ => Token.blockEnd).toArray, margin := 0, outer := [] }

/-- A block collection begins at a column, unless one already does. -/
def openBlock (s : Scanner) (column position : Nat) (start : Token) : Scanner :=
  if s.inFlow || column < s.margin then s
  else { s with
    tokens := s.tokens.insertIdxIfInBounds position start
    margin := column + 1
    outer := s.margin :: s.outer }

/-- The place where a key may have begun is given up. -/
def forgetKey (s : Scanner) : Except Error Scanner :=
  match s.keys with
  | some place :: keys =>
    if place.required then .error .missingColon else .ok { s with keys := none :: keys }
  | _ => .ok s

/-- A key may begin here. -/
def rememberKey (s : Scanner) (g : Glyph) : Except Error Scanner := do
  if !s.keyAllowed then return s
  let s ← s.forgetKey
  let place : KeyPlace := ⟨s.tokens.size, g, !s.inFlow && s.margin = g.column + 1⟩
  return { s with keys := some place :: s.keys.tail }

/-- A key that began here is too far back for a `:` at the given place. -/
def isStale (g : Glyph) (place : KeyPlace) : Bool :=
  place.start.line < g.line || place.start.index + 1024 < g.index

/-- Keys that are too far back are given up. -/
def forgetStale (s : Scanner) (g : Glyph) : Except Error Scanner :=
  if s.keys.any fun k => k.any fun place => place.required && isStale g place then
    .error .missingColon
  else .ok { s with keys := s.keys.map fun k => k.filter fun place => !isStale g place }

/-- A line starts or ends a document. -/
def scanMarker (s : Scanner) (t : Token) : Except Error Scanner := do
  let s ← s.closeAllBlocks.forgetKey
  return { s.emit t with keyAllowed := false }

def scanFlowStart (s : Scanner) (g : Glyph) (t : Token) : Except Error Scanner := do
  let s ← s.rememberKey g
  return { s.emit t with keys := none :: s.keys, keyAllowed := true }

def scanFlowEnd (s : Scanner) (t : Token) : Except Error Scanner := do
  let s ← s.forgetKey
  let keys := if s.inFlow then s.keys.tail else s.keys
  return { s.emit t with keys, keyAllowed := false }

/-- A `,` in a flow collection. -/
def scanFlowEntry (s : Scanner) : Except Error Scanner := do
  return { (← s.forgetKey).emit .flowEntry with keyAllowed := true }

/-- A `-` before a list entry. -/
def scanBlockEntry (s : Scanner) (g : Glyph) : Except Error Scanner := do
  if !s.inFlow && !s.keyAllowed then throw .misplacedEntry
  let s ← (s.openBlock g.column s.tokens.size .blockSequenceStart).forgetKey
  return { s.emit .blockEntry with keyAllowed := true }

/-- A `?` before a key. -/
def scanKey (s : Scanner) (g : Glyph) : Except Error Scanner := do
  if !s.inFlow && !s.keyAllowed then throw .misplacedKey
  let s ← (s.openBlock g.column s.tokens.size .blockMappingStart).forgetKey
  return { s.emit .key with keyAllowed := !s.inFlow }

/-- A `:` before a value. What stands where a key may have begun is now known to be one. -/
def scanValue (s : Scanner) (g : Glyph) : Except Error Scanner := do
  match s.keys with
  | some place :: keys =>
    let s := { s with tokens := s.tokens.insertIdxIfInBounds place.position .key }
    let s := s.openBlock place.start.column place.position .blockMappingStart
    return { s.emit .value with keys := none :: keys, keyAllowed := false }
  | _ =>
    if !s.inFlow && !s.keyAllowed then throw .misplacedValue
    let s := s.openBlock g.column s.tokens.size .blockMappingStart
    return { s.emit .value with keyAllowed := !s.inFlow }

/-- A character of a name. -/
def isNameChar (c : Char) : Bool := c.isAlphanum || c = '_' || c = '-'

/-- The name after `&` or `*`. -/
def scanName (gs : List Glyph) : Except Error (String × List Glyph) :=
  let name := gs.takeWhile fun g => isNameChar g.char
  let rest := gs.dropWhile fun g => isNameChar g.char
  let ends := Glyph.atGap rest || rest.head?.any fun g =>
    g.char ∈ ['?', ':', ',', ']', '}', '%', '@', '`']
  if name.isEmpty || !ends then .error .badAnchorName
  else .ok (String.ofList (name.map (·.char)), rest)

/-- A character of a tag. -/
def isTagChar (c : Char) : Bool :=
  isNameChar c || c ∈ [';', '/', '?', ':', '@', '&', '=', '+', '$', '.', '!', '~', '*', '\'', '(',
    ')']

/-- What `!!` at the start of a tag is short for. -/
def standardTags : String := "tag:yaml.org,2002:"

/-- The longest word of characters of tags, and of some more. -/
def tagWord (more : List Char) (gs : List Glyph) : String × List Glyph :=
  let belongs (g : Glyph) : Bool := isTagChar g.char || g.char ∈ more
  (String.ofList ((gs.takeWhile belongs).map (·.char)), gs.dropWhile belongs)

/-- The tag after a `!`, written out in full. In `<` and `>` it stands as it is; a second `!` is
short for the standard tags, and no other short forms are known. -/
def fullTag (gs : List Glyph) : Except Error (String × List Glyph) :=
  match gs.head?.map (·.char) with
  | some '<' =>
    let (word, rest) := tagWord [',', '[', ']'] gs.tail
    if word.isEmpty || (rest.head?.map (·.char)) != some '>' then .error .badTag
    else .ok (word, rest.tail)
  | some '!' =>
    let (word, rest) := tagWord [] gs.tail
    if word.isEmpty then .error .badTag else .ok (standardTags ++ word, rest)
  | _ =>
    let (word, rest) := tagWord [] gs
    if ((gs.dropWhile fun g => isNameChar g.char).head?.map (·.char)) == some '!' then
      .error .badTag
    else .ok ("!" ++ word, rest)

/-- The tag after a `!`, which ends at a gap or, inside a flow collection, at a `,`. -/
def scanTag (inFlow : Bool) (gs : List Glyph) : Except Error (String × List Glyph) := do
  let (name, rest) ← fullTag gs
  if Glyph.atGap rest || (inFlow && (rest.head?.map (·.char)) == some ',') then return (name, rest)
  else throw .badTag

/-- A plain scalar cannot begin with these, except that `-`, `?` and `:` can where what follows
is no gap. -/
def indicators : List Char := ['-', '?', ':', ',', '[', ']', '{', '}', '#', '&', '*', '!', '|',
  '>', '\'', '"', '%', '@', '`']

/-- A plain scalar can begin here. -/
def startsPlain (inFlow : Bool) (g : Glyph) (gs : List Glyph) : Bool :=
  g.char ∉ indicators || (g.char = '-' && !gs.head?.any Glyph.isBlank) ||
    (!inFlow && (g.char = '?' || g.char = ':') && !Glyph.atGap gs)

/-- One token, which begins with the first of the given characters. -/
def scanToken (s : Scanner) (g : Glyph) (gs : List Glyph) :
    Except Error (Scanner × List Glyph) := do
  let whole := g :: gs
  if g.column = 0 && g.char = '%' then throw (.strayCharacter g.char)
  if Glyph.isTriple '-' whole then return (← s.scanMarker .documentStart, gs.drop 2)
  if Glyph.isTriple '.' whole then return (← s.scanMarker .documentEnd, gs.drop 2)
  match g.char with
  | '[' => return (← s.scanFlowStart g .flowSequenceStart, gs)
  | '{' => return (← s.scanFlowStart g .flowMappingStart, gs)
  | ']' => return (← s.scanFlowEnd .flowSequenceEnd, gs)
  | '}' => return (← s.scanFlowEnd .flowMappingEnd, gs)
  | ',' => return (← s.scanFlowEntry, gs)
  | '*' =>
    let s ← s.rememberKey g
    let (name, rest) ← scanName gs
    return ({ s.emit (.alias name) with keyAllowed := false }, rest)
  | '&' =>
    let s ← s.rememberKey g
    let (name, rest) ← scanName gs
    return ({ s.emit (.anchor name) with keyAllowed := false }, rest)
  | '!' =>
    let s ← s.rememberKey g
    let (name, rest) ← scanTag s.inFlow gs
    return ({ s.emit (.tag name) with keyAllowed := false }, rest)
  | '\'' =>
    let s ← s.rememberKey g
    let (cs, rest) ← Scalar.singleQuoted whole.length gs
    return ({ s.emit (.scalar (String.ofList cs) false) with keyAllowed := false }, rest)
  | '"' =>
    let s ← s.rememberKey g
    let (cs, rest) ← Scalar.doubleQuoted whole.length gs
    return ({ s.emit (.scalar (String.ofList cs) false) with keyAllowed := false }, rest)
  | c =>
    if c = '-' && Glyph.atGap gs then return (← s.scanBlockEntry g, gs)
    if c = '?' && (s.inFlow || Glyph.atGap gs) then return (← s.scanKey g, gs)
    if c = ':' && (s.inFlow || Glyph.atGap gs) then return (← s.scanValue g, gs)
    if (c = '|' || c = '>') && !s.inFlow then
      let s ← s.forgetKey
      let (cs, rest) ← Scalar.block (c = '>') s.margin gs
      return ({ s.emit (.scalar (String.ofList cs) false) with keyAllowed := true }, rest)
    if !startsPlain s.inFlow g gs then throw (.strayCharacter c)
    let s ← s.rememberKey g
    let p ← Scalar.plain s.inFlow s.margin whole
    return ({ s.emit (.scalar (String.ofList p.text) true) with keyAllowed := p.crossedLine },
      p.rest)

/-- The tokens from the given characters on. Every token takes at least one character, so that
the count of characters is fuel enough. -/
def scan : Nat → Scanner → List Glyph → Except Error (List Token)
  | 0, _, _ => .error .unexpectedToken
  | fuel + 1, s, gs => do
    let (keyAllowed, gs) := skipGaps s.inFlow false s.keyAllowed gs
    let s := { s with keyAllowed }
    match gs with
    | [] =>
      if s.keys.any fun k => k.any (·.required) then throw .missingColon
      return s.closeAllBlocks.tokens.toList
    | g :: gs =>
      let s ← s.forgetStale g
      let (s, rest) ← (s.closeBlocks g.column).scanToken g gs
      scan fuel s rest

end Scanner

/-- The tokens of a text. -/
def Token.ofText (s : String) : Except Error (List Token) := do
  let gs ← Glyph.ofText s
  Scanner.initial.scan (gs.length + 1) gs

end ComputeNet.Yaml
