/-!
# YAML errors

Why a text is no YAML document that can be used, and the words for it.
-/

namespace ComputeNet.Yaml

/-- The first fault that reading a text meets. -/
inductive Error where
  | controlCharacter
  | strayCharacter (c : Char)
  /-- A line that must be a key has no `:`. -/
  | missingColon
  /-- A `-` stands where no list entry can start. -/
  | misplacedEntry
  /-- A `?` stands where no key can start. -/
  | misplacedKey
  /-- A `:` stands where no value can start. -/
  | misplacedValue
  /-- A tab stands where only spaces indent. -/
  | misplacedTab
  /-- A `:` inside a flow collection is followed by another indicator. -/
  | ambiguousColon
  /-- The name of an anchor is empty or goes on with a character that names do not have. -/
  | badAnchorName
  /-- A tag is empty, is not closed, or begins with a short form that nothing explains. -/
  | badTag
  /-- The line that opens a block text has an indentation of zero or something after it. -/
  | badBlockHeader
  | markerInText
  | unclosedText
  | badEscape
  /-- The tokens form no document. -/
  | unexpectedToken
  | unknownAnchor (name : String)
  | furtherDocument
deriving DecidableEq, Repr

def Error.message : Error → String
  | .controlCharacter => "control characters are not allowed"
  | .strayCharacter c => s!"found character {c} that cannot start any token"
  | .missingColon => "could not find expected ':'"
  | .misplacedEntry => "block sequence entries are not allowed in this context"
  | .misplacedKey => "mapping keys are not allowed in this context"
  | .misplacedValue => "mapping values are not allowed in this context"
  | .misplacedTab => "found a tab character where an indentation space is expected"
  | .ambiguousColon => "found unexpected ':'"
  | .badAnchorName => "did not find expected alphabetic or numeric character"
  | .badTag => "did not find expected tag URI"
  | .badBlockHeader => "did not find expected comment or line break"
  | .markerInText => "found unexpected document indicator"
  | .unclosedText => "found unexpected end of stream"
  | .badEscape => "found unknown escape character"
  | .unexpectedToken => "did not find expected node content"
  | .unknownAnchor name => s!"unknown anchor {name}"
  | .furtherDocument => "more than one document"

end ComputeNet.Yaml
