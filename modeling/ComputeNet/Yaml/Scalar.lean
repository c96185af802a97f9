import ComputeNet.Yaml.Glyph

/-!
# Scalars

The text values of YAML in their notations: plain words, texts in quotes, and indented blocks.
Each reader takes the characters from the scalar on and returns its text and what is left. Line
breaks inside plain and quoted texts fold: one becomes a space, and of more the first is dropped.
-/

namespace ComputeNet.Yaml.Scalar

/-- The text of a gap between two words. -/
def fold (gap : List Glyph) : List Char :=
  match (gap.filter Glyph.isBreak).map (·.char) with
  | [] => gap.map (·.char)
  | ['\n'] => [' ']
  | '\n' :: breaks => breaks
  | breaks => breaks

/-! ## Plain scalars -/

/-- The characters that structure flow collections. -/
def flowIndicators : List Char := [',', '[', ']', '{', '}']

/-- A word of a plain scalar. A `:` ends it before a gap, and a flow indicator inside a flow
collection. -/
def word (inFlow : Bool) : List Glyph → Except Error (List Char × List Glyph)
  | [] => .ok ([], [])
  | g :: gs =>
    let next := (gs.head?.map (·.char)).getD ' '
    if g.isGap then .ok ([], g :: gs)
    else if inFlow && g.char = ':' && next ∈ '?' :: flowIndicators then .error .ambiguousColon
    else if (g.char = ':' && Glyph.atGap gs) || (inFlow && g.char ∈ flowIndicators) then
      .ok ([], g :: gs)
    else (fun (cs, rest) => (g.char :: cs, rest)) <$> word inFlow gs

/-- What a reader of plain scalars returns. -/
structure Plain where
  text : List Char
  rest : List Glyph
  /-- A line ended between the last word and the rest. -/
  crossedLine : Bool

/-- The words after the first one, with the gaps before them. A plain scalar ends before a
comment, a document marker or, outside flow collections, a line that begins left of `margin`. -/
def furtherWords (inFlow : Bool) (margin : Nat) : Nat → List Glyph → Except Error Plain
  | 0, gs => .ok ⟨[], gs, false⟩
  | fuel + 1, gs => do
    let gap := gs.takeWhile Glyph.isGap
    let rest := gs.dropWhile Glyph.isGap
    let ending : Plain := ⟨[], rest, gap.any Glyph.isBreak⟩
    if (gap.dropWhile (!·.isBreak)).any fun g => g.char = '\t' && g.column < margin then
      throw .misplacedTab
    match gap, rest with
    | _ :: _, g :: _ =>
      if (!inFlow && g.column < margin) || Glyph.isMarker rest || g.char = '#' then return ending
      let (cs, after) ← word inFlow rest
      if cs.isEmpty then return ending
      let more ← furtherWords inFlow margin fuel after
      return { more with text := fold gap ++ cs ++ more.text }
    | _, _ => return ending

/-- A plain scalar. -/
def plain (inFlow : Bool) (margin : Nat) (gs : List Glyph) : Except Error Plain := do
  let (cs, after) ← word inFlow gs
  let more ← furtherWords inFlow margin gs.length after
  return { more with text := cs ++ more.text }

/-! ## Quoted scalars -/

/-- The rest of a text in single quotes, in which a quote is written twice. -/
def singleQuoted : Nat → List Glyph → Except Error (List Char × List Glyph)
  | fuel + 1, g :: gs =>
    if Glyph.isMarker (g :: gs) then .error .markerInText
    else if g.isGap then
      let gap := (g :: gs).takeWhile Glyph.isGap
      (fun (cs, rest) => (fold gap ++ cs, rest)) <$>
        singleQuoted fuel ((g :: gs).dropWhile Glyph.isGap)
    else if g.char = '\'' then
      match gs with
      | h :: after =>
        if h.char = '\'' then (fun (cs, rest) => ('\'' :: cs, rest)) <$> singleQuoted fuel after
        else .ok ([], gs)
      | [] => .ok ([], [])
    else (fun (cs, rest) => (g.char :: cs, rest)) <$> singleQuoted fuel gs
  | _, _ => .error .unclosedText

/-- What a backslash and a character stand for. -/
def escape? : Char → Option Char
  | '0' => some '\x00'
  | 'a' => some '\x07'
  | 'b' => some '\x08'
  | 't' => some '\t'
  | '\t' => some '\t'
  | 'n' => some '\n'
  | 'v' => some '\x0B'
  | 'f' => some '\x0C'
  | 'r' => some '\r'
  | 'e' => some '\x1B'
  | ' ' => some ' '
  | '"' => some '"'
  | '/' => some '/'
  | '\\' => some '\\'
  | 'N' => some '\u0085'
  | '_' => some '\u00A0'
  | 'L' => some '\u2028'
  | 'P' => some '\u2029'
  | _ => none

/-- How many digits follow a backslash and a character. -/
def codeLength? : Char → Option Nat
  | 'x' => some 2
  | 'u' => some 4
  | 'U' => some 8
  | _ => none

def hexDigit? (c : Char) : Option Nat :=
  if '0' ≤ c ∧ c ≤ '9' then some (c.toNat - '0'.toNat)
  else if 'a' ≤ c ∧ c ≤ 'f' then some (c.toNat - 'a'.toNat + 10)
  else if 'A' ≤ c ∧ c ≤ 'F' then some (c.toNat - 'A'.toNat + 10)
  else none

/-- The character whose number these are the digits of. -/
def ofCode? (digits : List Glyph) : Option Char := do
  let values ← digits.mapM fun g => hexDigit? g.char
  let code := values.foldl (fun v d => v * 16 + d) 0
  if code.isValidChar then some (Char.ofNat code) else none

/-- What an escape stands for: the characters after the backslash are given. An escaped line
break vanishes, with the blanks that follow it. -/
def escape : List Glyph → Except Error (List Char × List Glyph)
  | [] => .error .badEscape
  | g :: gs =>
    if g.isBreak then
      .ok (((gs.takeWhile Glyph.isGap).filter Glyph.isBreak).map (·.char),
        gs.dropWhile Glyph.isGap)
    else
      match escape? g.char, codeLength? g.char with
      | some c, _ => .ok ([c], gs)
      | none, some n =>
        match ofCode? (gs.take n) with
        | some c => if gs.length < n then .error .badEscape else .ok ([c], gs.drop n)
        | none => .error .badEscape
      | none, none => .error .badEscape

/-- The rest of a text in double quotes, in which a backslash begins an escape. -/
def doubleQuoted : Nat → List Glyph → Except Error (List Char × List Glyph)
  | fuel + 1, g :: gs =>
    if Glyph.isMarker (g :: gs) then .error .markerInText
    else if g.isGap then
      let gap := (g :: gs).takeWhile Glyph.isGap
      (fun (cs, rest) => (fold gap ++ cs, rest)) <$>
        doubleQuoted fuel ((g :: gs).dropWhile Glyph.isGap)
    else if g.char = '"' then .ok ([], gs)
    else if g.char = '\\' then do
      let (escaped, after) ← escape gs
      let (cs, rest) ← doubleQuoted fuel after
      return (escaped ++ cs, rest)
    else (fun (cs, rest) => (g.char :: cs, rest)) <$> doubleQuoted fuel gs
  | _, _ => .error .unclosedText

/-! ## Block scalars -/

/-- What happens to the line breaks at the end of a block. -/
inductive Chomping where
  /-- All go. -/
  | strip
  /-- The first one stays. -/
  | clip
  /-- All stay. -/
  | keep
deriving DecidableEq

/-- The line that opens a block, after its indicator: how the end is chomped, and how far the
block is indented beyond its surroundings, 0 if that is not said. -/
structure BlockHeader where
  chomping : Chomping
  indentation : Nat
  rest : List Glyph

/-- A chomping indicator, if there is one. -/
def takeChomping : List Glyph → Option Chomping × List Glyph
  | [] => (none, [])
  | g :: gs =>
    if g.char = '+' then (some .keep, gs)
    else if g.char = '-' then (some .strip, gs)
    else (none, g :: gs)

/-- An indentation indicator, or 0 if there is none. The indicator itself cannot be 0. -/
def takeIndentation : List Glyph → Except Error (Nat × List Glyph)
  | [] => .ok (0, [])
  | g :: gs =>
    if g.char = '0' then .error .badBlockHeader
    else if g.char.isDigit then .ok (g.char.toNat - '0'.toNat, gs)
    else .ok (0, g :: gs)

/-- Reads the line that opens a block, up to and with its end. The two indicators may come in
either order, and a comment may follow. -/
def blockHeader (gs : List Glyph) : Except Error BlockHeader := do
  let (before, gs) := takeChomping gs
  let (indentation, gs) ← takeIndentation gs
  let (after, gs) := if before.isNone then takeChomping gs else (none, gs)
  let chomping := (before.or after).getD .clip
  let rest := gs.dropWhile Glyph.isBlank
  let rest := if (rest.head?.map (·.char)) = some '#' then rest.dropWhile (!·.isBreak) else rest
  match rest with
  | [] => return { chomping, indentation, rest := [] }
  | g :: gs =>
    if g.isBreak then return { chomping, indentation, rest := gs } else throw .badBlockHeader

/-- Empty lines of a block and the indentation of the line after them. Indentation ends at
`indent`, or at anything but a space while `indent` is 0. Returns the line breaks and the furthest
column that was reached. -/
def blockBreaks (indent furthest : Nat) :
    List Glyph → Except Error (List Char × Nat × List Glyph)
  | [] => .ok ([], furthest, [])
  | g :: gs =>
    if g.char = ' ' && (indent = 0 || g.column < indent) then blockBreaks indent furthest gs
    else
      let furthest := max furthest g.column
      if g.char = '\t' && (indent = 0 || g.column < indent) then .error .misplacedTab
      else if g.isBreak then
        (fun (breaks, rest) => (g.char :: breaks, rest)) <$> blockBreaks indent furthest gs
      else .ok ([], furthest, g :: gs)

/-- The part of a block that has been read before a line. -/
structure BlockState where
  /-- The break at the end of the line before. -/
  lineBreak : List Char
  /-- The breaks of the empty lines after it. -/
  emptyLines : List Char
  /-- The line before begins with a blank. -/
  afterBlank : Bool

/-- The lines of a block, each indented by `indent`. In a folded block the break between two
lines that do not begin with a blank becomes a space, or vanishes before empty lines. -/
def blockLines (folded : Bool) (chomping : Chomping) (indent : Nat) :
    Nat → BlockState → List Glyph → Except Error (List Char × List Glyph)
  | fuel + 1, s, g :: gs =>
    if g.column = indent then do
      let joint :=
        if folded && s.lineBreak = ['\n'] && !s.afterBlank && !g.isBlank then
          if s.emptyLines.isEmpty then [' '] else s.emptyLines
        else s.lineBreak ++ s.emptyLines
      let line := (g :: gs).takeWhile (!·.isBreak)
      let after := (g :: gs).dropWhile (!·.isBreak)
      let (emptyLines, _, rest) ← blockBreaks indent 0 after.tail
      let (cs, rest) ← blockLines folded chomping indent fuel
        ⟨(after.take 1).map (·.char), emptyLines, g.isBlank⟩ rest
      return (joint ++ line.map (·.char) ++ cs, rest)
    else .ok (chomped s, g :: gs)
  | _, s, gs => .ok (chomped s, gs)
where
  /-- What stays of the line breaks at the end. -/
  chomped (s : BlockState) : List Char :=
    match chomping with
    | .strip => []
    | .clip => s.lineBreak
    | .keep => s.lineBreak ++ s.emptyLines

/-- A block scalar, after its indicator. Unless its first line says how far it is indented, the
first line that is not empty does; it is indented to `margin` at least. -/
def block (folded : Bool) (margin : Nat) (gs : List Glyph) :
    Except Error (List Char × List Glyph) := do
  let header ← blockHeader gs
  let told := if header.indentation = 0 then 0 else margin - 1 + header.indentation
  let (emptyLines, furthest, rest) ← blockBreaks told 0 header.rest
  let indent := if told = 0 then max (max furthest margin) 1 else told
  blockLines folded header.chomping indent (rest.length + 1) ⟨[], emptyLines, false⟩ rest

end ComputeNet.Yaml.Scalar
