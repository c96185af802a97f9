import ComputeNet.Borsh.Error
import ComputeNet.Enumeration

/-!
# Borsh

The binary format of account data, event payloads and instruction arguments. Numbers are little
endian, texts and lists carry a 32-bit length, an optional value carries a mark, an alternative a
tag, and a record is its fields in order. `encode` writes a value and `decode` reads one from the
front of a byte string and returns what is left.

`fits` says that every length in a value can be written in 32 bits; only such values are read
back as they were.
-/

namespace ComputeNet

/-- Types with a Borsh format. -/
class Borsh (α : Type) where
  encode : α → Bytes
  /-- Reads a value from the front of a byte string; the second part is what is left. -/
  decode : Bytes → Except Borsh.Error (α × Bytes)
  /-- Every length in the value is below 2^32. -/
  fits : α → Bool := fun _ => true

namespace Borsh

variable {α β : Type}

/-- The bytes of a value, or `none` if a length in it does not fit its format. -/
def encode? [Borsh α] (a : α) : Option Bytes := if fits a then some (encode a) else none

/-- Splits off the first `n` bytes. -/
def take (n : Nat) (bs : Bytes) : Except Error (FixedBytes n × Bytes) :=
  if h : n ≤ bs.length then .ok (.take n bs h, bs.drop n) else .error .endOfInput

def takeNat (n : Nat) (bs : Bytes) : Except Error (Nat × Bytes) := do
  let (number, rest) ← take n bs
  return (ofLittleEndian number.toList, rest)

def takeByte : Bytes → Except Error (UInt8 × Bytes)
  | [] => .error .endOfInput
  | b :: bs => .ok (b, bs)

instance : Borsh UInt8 where
  encode v := [v]
  decode := takeByte

instance : Borsh UInt16 where
  encode v := littleEndian 2 v.toNat
  decode bs := do
    let (v, rest) ← takeNat 2 bs
    return (UInt16.ofNat v, rest)

instance : Borsh UInt32 where
  encode v := littleEndian 4 v.toNat
  decode bs := do
    let (v, rest) ← takeNat 4 bs
    return (UInt32.ofNat v, rest)

instance : Borsh UInt64 where
  encode v := littleEndian 8 v.toNat
  decode bs := do
    let (v, rest) ← takeNat 8 bs
    return (UInt64.ofNat v, rest)

instance : Borsh Bool where
  encode v := [if v then 1 else 0]
  decode bs := do
    let (byte, rest) ← takeByte bs
    if byte = 0 then return (false, rest)
    else if byte = 1 then return (true, rest)
    else throw (.badBool byte)

instance : Borsh (FixedBytes n) where
  encode v := v.toList
  decode := take n

/-- A text is its length in bytes and its UTF-8. The length is compared with what is left before
the bytes are looked at. -/
instance : Borsh String where
  encode s := littleEndian 4 (Utf8.encode s).length ++ Utf8.encode s
  decode bs := do
    let (length, rest) ← takeNat 4 bs
    let (text, rest) ← take length rest
    match Utf8.decode text.toList with
    | .error cause => throw (.badText cause)
    | .ok s => return (s, rest)
  fits s := (Utf8.encode s).length < UInt32.size

instance [Borsh α] : Borsh (Option α) where
  encode
    | none => [0]
    | some a => 1 :: encode a
  decode bs := do
    let (mark, rest) ← takeByte bs
    if mark = 0 then return (none, rest)
    else if mark = 1 then
      let (a, rest) ← decode rest
      return (some a, rest)
    else throw (.badOption mark)
  fits
    | none => true
    | some a => fits a

def decodeMany [Borsh α] : Nat → Bytes → Except Error (List α × Bytes)
  | 0, bs => .ok ([], bs)
  | n + 1, bs => do
    let (a, rest) ← decode bs
    let (as, rest) ← decodeMany n rest
    return (a :: as, rest)

/-- A list is its length and its elements. The length itself is never compared with what is left:
a list that is too short fails at its first missing element. -/
instance [Borsh α] : Borsh (List α) where
  encode as := littleEndian 4 as.length ++ as.flatMap encode
  decode bs := do
    let (length, rest) ← takeNat 4 bs
    decodeMany length rest
  fits as := as.length < UInt32.size && as.all fits

instance [Borsh α] [Borsh β] : Borsh (α × β) where
  encode p := encode p.1 ++ encode p.2
  decode bs := do
    let (a, rest) ← decode bs
    let (b, rest) ← decode rest
    return ((a, b), rest)
  fits p := fits p.1 && fits p.2

instance : Borsh Unit where
  encode _ := []
  decode bs := .ok ((), bs)

/-- The format of a record: that of its fields, in order. -/
@[reducible] def ofFields [Borsh β] (fields : α → β) (make : β → α) : Borsh α where
  encode a := encode (fields a)
  decode bs := do
    let (b, rest) ← decode bs
    return (make b, rest)
  fits a := fits (fields a)

/-- The format of an enumeration: the tag of the member. -/
@[reducible] def ofTags (α : Type) [Enumeration α] [DecidableEq α] : Borsh α where
  encode a := [Enumeration.tag a]
  decode bs := do
    let (tag, rest) ← takeByte bs
    match Enumeration.ofTag? tag with
    | none => throw (.badTag tag)
    | some a => return (a, rest)

end Borsh

end ComputeNet
