import ComputeNet.Bytes

/-!
# Base 64

The standard alphabet with padding. `encode` writes a byte string. `decode` accepts exactly what
`encode` writes: the padding must be there and the bits that a short last group leaves over must
be zero. Which fault is reported follows an order: a stray last symbol that makes the length
impossible, then the groups of four before the last one from left to right, then the last group.
-/

namespace ComputeNet.Base64

def pad : UInt8 := 0x3D

/-- The symbol of a value below 64. -/
def symbol (v : Nat) : UInt8 :=
  if v < 26 then UInt8.ofNat (v + 0x41)
  else if v < 52 then UInt8.ofNat (v - 26 + 0x61)
  else if v < 62 then UInt8.ofNat (v - 52 + 0x30)
  else if v = 62 then 0x2B
  else 0x2F

def value? (b : UInt8) : Option Nat :=
  if 0x41 ≤ b ∧ b ≤ 0x5A then some (b.toNat - 0x41)
  else if 0x61 ≤ b ∧ b ≤ 0x7A then some (b.toNat - 0x61 + 26)
  else if 0x30 ≤ b ∧ b ≤ 0x39 then some (b.toNat - 0x30 + 52)
  else if b = 0x2B then some 62
  else if b = 0x2F then some 63
  else none

/-- The symbols of a byte string: three bytes make four symbols. -/
def encode : Bytes → Bytes
  | a :: b :: c :: rest =>
    symbol (a.toNat / 4) :: symbol (a.toNat % 4 * 16 + b.toNat / 16) ::
      symbol (b.toNat % 16 * 4 + c.toNat / 64) :: symbol (c.toNat % 64) :: encode rest
  | [a, b] =>
    [symbol (a.toNat / 4), symbol (a.toNat % 4 * 16 + b.toNat / 16), symbol (b.toNat % 16 * 4), pad]
  | [a] => [symbol (a.toNat / 4), symbol (a.toNat % 4 * 16), pad, pad]
  | [] => []

def encodeText (bs : Bytes) : String := String.ofList ((encode bs).map fun b => Char.ofNat b.toNat)

/-- Why a text is no base 64. Positions count bytes from the start. -/
inductive Error where
  /-- The byte does not belong at its position. -/
  | invalidSymbol (byte : UInt8) (position : Nat)
  /-- The symbols stop where no byte can end. -/
  | invalidLength (length : Nat)
  /-- The last symbol leaves bits over that are not zero. -/
  | invalidLastSymbol (byte : UInt8) (position : Nat)
  /-- The last group is not filled up to four. -/
  | invalidPadding
deriving DecidableEq, Repr

def Error.message : Error → String
  | .invalidSymbol byte position => s!"Invalid symbol {byte}, offset {position}."
  | .invalidLength length => s!"Invalid input length: {length}"
  | .invalidLastSymbol byte position => s!"Invalid last symbol {byte}, offset {position}."
  | .invalidPadding => "Invalid padding"

/-- The values of the symbols from `position` on; the first byte that is none is the fault. -/
def values (position : Nat) : Bytes → Except Error (List Nat)
  | [] => .ok []
  | b :: bs =>
    match value? b with
    | none => .error (.invalidSymbol b position)
    | some v => (v :: ·) <$> values (position + 1) bs

/-- The symbols of the last group, which begins at `start`. `read` holds the values so far, the
latest first. From the first padding symbol on, at `padding`, only padding may follow, and it may
not be among the first two. -/
def lastGroup (start : Nat) (read : List Nat) (padding : Option Nat) (position : Nat) :
    Bytes → Except Error (List Nat × Nat)
  | [] => .ok (read.reverse, match padding with
      | none => 0
      | some first => position - first)
  | b :: bs =>
    if b = pad then
      if position < start + 2 then .error (.invalidSymbol pad position)
      else lastGroup start read (some (padding.getD position)) (position + 1) bs
    else match padding with
      | some first => .error (.invalidSymbol pad first)
      | none =>
        match value? b with
        | none => .error (.invalidSymbol b position)
        | some v => lastGroup start (v :: read) none (position + 1) bs

/-- The bytes of full groups of four values. -/
def bytesOfGroups : List Nat → Bytes
  | a :: b :: c :: d :: rest =>
    UInt8.ofNat (a * 4 + b / 16) :: UInt8.ofNat (b * 16 + c / 4) :: UInt8.ofNat (c * 64 + d) ::
      bytesOfGroups rest
  | _ => []

/-- The bytes of the last group: its values, how many padding symbols follow them, and its last
symbol with its position. -/
def finish (start : Nat) (group : Bytes) : List Nat × Nat → Except Error Bytes
  | ([a, b], padding) =>
    if padding ≠ 2 then .error .invalidPadding
    else if b % 16 ≠ 0 then .error (.invalidLastSymbol (group.getD 1 0) (start + 1))
    else .ok [UInt8.ofNat (a * 4 + b / 16)]
  | ([a, b, c], padding) =>
    if padding ≠ 1 then .error .invalidPadding
    else if c % 4 ≠ 0 then .error (.invalidLastSymbol (group.getD 2 0) (start + 2))
    else .ok [UInt8.ofNat (a * 4 + b / 16), UInt8.ofNat (b * 16 + c / 4)]
  | ([a, b, c, d], _) => .ok (bytesOfGroups [a, b, c, d])
  | (short, _) => .error (.invalidLength (start + short.length))

/-- The byte string of a base 64 text, or the first fault in the order given above. -/
def decode (bs : Bytes) : Except Error Bytes := do
  match bs.getLast? with
  | none => return []
  | some last =>
    if bs.length % 4 = 1 ∧ last ≠ pad ∧ value? last = none then
      throw (.invalidSymbol last (bs.length - 1))
    -- The last group holds one to four bytes, so that a text of full groups ends with one.
    let start := (bs.length - 1) / 4 * 4
    let front ← values 0 (bs.take start)
    let group := bs.drop start
    let read ← lastGroup start [] none start group
    return bytesOfGroups front ++ (← finish start group read)

end ComputeNet.Base64
