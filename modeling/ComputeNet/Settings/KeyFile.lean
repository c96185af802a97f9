import ComputeNet.Settings.Document
import ComputeNet.Text.Blank
import ComputeNet.Transaction.KeyPair

/-!
# Files of a client

The settings file and the key file. Files are found in the home directory, which a leading `~` in
a path stands for. A key file lists the 64 bytes of a secret key and its public key as numbers.
-/

namespace ComputeNet

/-- A directory of files. -/
structure Directory where
  path : String
  /-- The names of the files and their texts. -/
  files : List (String × String)

namespace Directory

/-- The path with a leading `~`, alone or before a `/`, replaced by the path of the directory. -/
def expand (d : Directory) (path : String) : String :=
  match path.toList with
  | ['~'] => d.path
  | '~' :: '/' :: cs => d.path ++ String.ofList ('/' :: cs)
  | _ => path

/-- The parts of a path below the directory, or `none` if it does not lead there. -/
def parts? (d : Directory) (path : String) : Option (List String) :=
  if d.path.toList.isPrefixOf path.toList then
    match (path.toList.drop d.path.length).splitOn '/' with
    | [] :: parts => some (parts.map String.ofList)
    | _ => none
  else none

/-- The text of the file at a path. Parts that are empty or `.` lead nowhere. -/
def read (d : Directory) (path : String) : Except FileError String :=
  match d.parts? path with
  | none => .error .missing
  | some parts =>
    match parts.filter fun part => part ≠ "" ∧ part ≠ "." with
    | [] => .error .isDirectory
    | name :: further =>
      match d.files.lookup name with
      | none => .error .missing
      | some text =>
        if further.isEmpty ∧ parts.getLast? = some name then .ok text else .error .notDirectory

end Directory

namespace ByteText

/-- Reads the digits of a number below 256, after the number `v` so far. A character that is no
digit is noticed before the number gets too large. -/
def ofDigits (v : Nat) : List Char → Except Error UInt8
  | [] => .ok (UInt8.ofNat v)
  | c :: cs =>
    if !c.isDigit then .error .badDigit
    else
      let v := v * 10 + (c.toNat - '0'.toNat)
      if v < 256 then ofDigits v cs else .error .tooLarge

/-- Reads a number below 256, which may begin with `+`. -/
def ofText : List Char → Except Error UInt8
  | [] => .error .empty
  | ['+'] => .error .badDigit
  | '+' :: cs => ofDigits 0 cs
  | cs => ofDigits 0 cs

end ByteText

namespace KeyFile

/-- What stands between a `[` at the start and a `]` at the end. -/
def unbracket? (cs : List Char) : Option (List Char) :=
  match cs with
  | '[' :: rest => if rest.getLast? = some ']' then some rest.dropLast else none
  | _ => none

/-- The key pair in the text of a key file. -/
def ofText (s : String) : Except Error KeyPair := do
  match unbracket? (Text.trim s.toList) with
  | none => throw .notArray
  | some inner =>
    let items := inner.splitOn ','
    if items.length ≠ 64 then throw (.wrongCount items.length)
    let bytes ← (items.mapM fun item => ByteText.ofText (Text.trim item)).mapError .badItem
    match FixedBytes.ofList? 32 (bytes.take 32), FixedBytes.ofList? 32 (bytes.drop 32) with
    | some seed, some address =>
      let pair := KeyPair.ofSeed seed
      if pair.address = address then return pair else throw .mismatch
    | _, _ => throw (.wrongCount items.length)

end KeyFile

namespace Settings

/-- Reads a settings file under an environment. -/
def load (d : Directory) (path : String) (environment : String → Option String) :
    Except ClientError Settings := do
  let text ← (d.read path).mapError fun cause => .config (.unreadable cause)
  return (← ofText text).withEnvironment environment

/-- Reads the key pair of the client (`load_keypair`). -/
def loadKeyPair (home : Directory) (s : Settings) : Except ClientError KeyPair :=
  match s.keypairPath with
  | none => .error (.missingField "keypair_path")
  | some path =>
    let path := home.expand path
    let fail (cause : KeyFile.Error) : ClientError := .config (.badKeyFile path cause)
    match home.read path with
    | .error cause => .error (fail (.unreadable cause))
    | .ok text => (KeyFile.ofText text).mapError fail

end Settings

end ComputeNet
