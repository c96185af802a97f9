import ComputeNet.Text.Utf8

/-!
# Decoding errors

Why a byte string is no Borsh encoding, and the words for it.
-/

namespace ComputeNet.Borsh

/-- The first fault that reading from front to back meets. -/
inductive Error where
  | endOfInput
  /-- A truth value is neither 0 nor 1. -/
  | badBool (byte : UInt8)
  /-- The mark of an optional value is neither 0 nor 1. -/
  | badOption (byte : UInt8)
  /-- No alternative has this tag. -/
  | badTag (byte : UInt8)
  /-- A text is no UTF-8. -/
  | badText (cause : Utf8.Error)
deriving DecidableEq, Repr

def Error.message : Error → String
  | .endOfInput => "Unexpected length of input"
  | .badBool byte => s!"Invalid bool representation: {byte}"
  | .badOption byte =>
      s!"Invalid Option representation: {byte}. The first byte must be 0 or 1"
  | .badTag byte => s!"Unexpected variant tag: {byte}"
  | .badText cause => cause.message

end ComputeNet.Borsh
