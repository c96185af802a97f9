import ComputeNet.Text.Base58
import ComputeNet.Yaml.Error

/-!
# Settings errors

What can be wrong with the settings of a client, with the addresses in them and with the key file
that they name.
-/

namespace ComputeNet

/-- Why a text is no number that fits a byte. -/
inductive ByteText.Error where
  | empty
  | badDigit
  | tooLarge
deriving DecidableEq, Repr

def ByteText.Error.message : ByteText.Error → String
  | .empty => "cannot parse integer from empty string"
  | .badDigit => "invalid digit found in string"
  | .tooLarge => "number too large to fit in target type"

/-- Why a file cannot be read. -/
inductive FileError where
  | missing
  /-- The path goes through a file as if it were a directory. -/
  | notDirectory
  | isDirectory
deriving DecidableEq, Repr

def FileError.message : FileError → String
  | .missing => "No such file or directory (os error 2)"
  | .notDirectory => "Not a directory (os error 20)"
  | .isDirectory => "Is a directory (os error 21)"

/-- Why a key file gives no key pair. -/
inductive KeyFile.Error where
  | unreadable (cause : FileError)
  /-- The text is not enclosed in brackets. -/
  | notArray
  | wrongCount (found : Nat)
  /-- An item is no byte. -/
  | badItem (cause : ByteText.Error)
  /-- The public key is not that of the secret key. -/
  | mismatch
deriving DecidableEq, Repr

def KeyFile.Error.message : KeyFile.Error → String
  | .unreadable cause => cause.message
  | .notArray => "Input must be a JSON array"
  | .wrongCount found => s!"Expected 64 elements, found {found}"
  | .badItem cause => cause.message
  | .mismatch => "signature error"

namespace Settings

/-- What is wrong with the settings of a client. -/
inductive Error where
  /-- The text is no document. -/
  | notYaml (cause : Yaml.Error)
  /-- The document, or a section of it, is no mapping. -/
  | notMapping
  /-- A key is no scalar. -/
  | badKey
  | duplicateField (field : String)
  | missingField (field : String)
  /-- The value of a field is of the wrong kind. -/
  | badValue (field : String)
  | unreadable (cause : FileError)
  /-- The value of a field is no address. -/
  | badAddress (field : String) (cause : Base58.Error)
  /-- The key file at a path gives no key pair. -/
  | badKeyFile (path : String) (cause : KeyFile.Error)
deriving DecidableEq, Repr

def Error.message : Error → String
  | .notYaml cause => cause.message
  | .notMapping => "expected a mapping"
  | .badKey => "expected a field name"
  | .duplicateField field => s!"duplicate field {field}"
  | .missingField field => s!"missing field {field}"
  | .badValue field => s!"invalid value for {field}"
  | .unreadable cause => cause.message
  | .badAddress field cause => s!"{field}: {cause.message}"
  | .badKeyFile path cause => s!"{path}: {cause.message}"

end Settings

end ComputeNet
