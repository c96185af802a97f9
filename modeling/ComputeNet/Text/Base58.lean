import ComputeNet.Bytes

/-!
# Base 58

The text form of addresses, signatures and block hashes: the byte string as one big-endian number
in base 58, over an alphabet without look-alike characters, with one `1` in front for every zero
byte in front.
-/

namespace ComputeNet.Base58

/-- The digits, in order of their value. -/
def alphabet : List Char :=
  "123456789ABCDEFGHJKLMNPQRSTUVWXYZabcdefghijkmnopqrstuvwxyz".toList

/-- The digits of a number, most significant first; none for zero. -/
def digits (n : Nat) : List Char :=
  if n = 0 then [] else digits (n / 58) ++ [alphabet.getD (n % 58) '1']
termination_by n

def encode (bs : Bytes) : String :=
  String.ofList ((bs.takeWhile (· = 0)).map (fun _ => '1') ++ digits (ofBigEndian bs))

/-- Why a text names no byte string of the wanted length. -/
inductive Error where
  /-- A character is none of the digits. -/
  | invalidDigit
  /-- The byte string has another length. -/
  | wrongSize
deriving DecidableEq, Repr

def Error.message : Error → String
  | .invalidDigit => "Invalid Base58 string"
  | .wrongSize => "String is the wrong size"

def digit? (c : Char) : Option Nat := alphabet.idxOf? c

/-- The base-256 digits of a number, most significant first; none for zero. -/
def bytesOfNat (n : Nat) : Bytes :=
  if n = 0 then [] else bytesOfNat (n / 256) ++ [UInt8.ofNat n]
termination_by n

/-- The byte string of a list of digit values. -/
def bytesOfDigits (ds : List Nat) : Bytes :=
  (ds.takeWhile (· = 0)).map (fun _ => 0) ++ bytesOfNat (ds.foldl (fun v d => v * 58 + d) 0)

/-- The longest text of a byte string of length `n`. -/
def maxLength (n : Nat) : Nat := (digits (Nat.pow 256 n - 1)).length

/-- Reads a byte string of length `n`. A text longer than any such byte string has is refused
before its characters are looked at. -/
def decode (n : Nat) (s : String) : Except Error (FixedBytes n) :=
  if s.utf8ByteSize > maxLength n then .error .wrongSize
  else match s.toList.mapM digit? with
    | none => .error .invalidDigit
    | some ds =>
      match FixedBytes.ofList? n (bytesOfDigits ds) with
      | none => .error .wrongSize
      | some bs => .ok bs

end ComputeNet.Base58
