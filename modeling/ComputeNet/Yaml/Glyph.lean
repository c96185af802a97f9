import ComputeNet.Yaml.Error

/-!
# Characters with their places

A YAML text is read as a list of characters that know their line and column, because indentation
decides what belongs together. Every way to end a line is read as one character.
-/

namespace ComputeNet.Yaml

/-- A character may occur in a text. -/
def isAllowed (c : Char) : Bool :=
  c = '\t' || c = '\n' || c = '\r' || (' ' ≤ c && c ≤ '~') || c = '\u0085' ||
    ('\u00A0' ≤ c && c ≤ '\uFFFD') || 0x10000 ≤ c.toNat

def isBreak (c : Char) : Bool :=
  c = '\n' || c = '\r' || c = '\u0085' || c = '\u2028' || c = '\u2029'

/-- A character is a space or a tab. -/
def isBlank (c : Char) : Bool := c = ' ' || c = '\t'

/-- A character and its place in a text. -/
structure Glyph where
  char : Char
  index : Nat
  line : Nat
  column : Nat
deriving DecidableEq

namespace Glyph

def isBreak (g : Glyph) : Bool := Yaml.isBreak g.char

def isBlank (g : Glyph) : Bool := Yaml.isBlank g.char

/-- The character separates words. -/
def isGap (g : Glyph) : Bool := g.isBlank || g.isBreak

/-- What a character that ends a line is read as: only the line and paragraph separators stay
what they are. -/
def normalBreak (c : Char) : Char := if c = '\r' || c = '\u0085' then '\n' else c

/-- The characters of a text from a place on. -/
def place (index line column : Nat) : List Char → List Glyph
  | [] => []
  | '\r' :: '\n' :: cs => ⟨'\n', index, line, column⟩ :: place (index + 2) (line + 1) 0 cs
  | c :: cs =>
    if Yaml.isBreak c then ⟨normalBreak c, index, line, column⟩ :: place (index + 1) (line + 1) 0 cs
    else ⟨c, index, line, column⟩ :: place (index + 1) line (column + 1) cs

/-- The characters of a text. A byte order mark in front is passed over. -/
def ofText (s : String) : Except Error (List Glyph) :=
  if s.toList.all isAllowed then
    .ok (match place 0 0 0 s.toList with
      | g :: gs => if g.char = '\uFEFF' then gs else g :: gs
      | [] => [])
  else .error .controlCharacter

/-- The text goes on with a gap or ends. -/
def atGap : List Glyph → Bool
  | [] => true
  | g :: _ => g.isGap

/-- A line begins here that holds three times the same character as a word. -/
def isTriple (c : Char) : List Glyph → Bool
  | x :: y :: z :: gs => x.column = 0 && x.char = c && y.char = c && z.char = c && atGap gs
  | _ => false

/-- A line begins here that starts or ends a document. -/
def isMarker (gs : List Glyph) : Bool := isTriple '-' gs || isTriple '.' gs

end Glyph

end ComputeNet.Yaml
