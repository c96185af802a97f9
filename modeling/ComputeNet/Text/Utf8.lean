import ComputeNet.Bytes

/-!
# UTF-8

`encode` writes a string as bytes. `decode` reads bytes back and, where they are no UTF-8, says
where the first fault begins and how many bytes belong to it. The lead byte of a character fixes
the ranges in which the bytes after it must lie (`tails`), which rules out overlong forms,
surrogates and values beyond the last code point at their second byte.
-/

namespace ComputeNet.Utf8

/-- Why a byte string is no UTF-8. Positions count bytes from the start. -/
inductive Error where
  /-- The `length` bytes from `position` start no character, whatever follows. -/
  | invalid (position length : Nat)
  /-- The input ends inside a character that began at `position`. -/
  | incomplete (position : Nat)
deriving DecidableEq, Repr

def Error.message : Error → String
  | .invalid position length =>
      s!"invalid utf-8 sequence of {length} bytes from index {position}"
  | .incomplete position => s!"incomplete utf-8 byte sequence from index {position}"

def encode (s : String) : Bytes := s.toList.flatMap String.utf8EncodeChar

/-- An inclusive range of bytes. -/
structure ByteRange where
  first : UInt8
  last : UInt8

def ByteRange.contains (r : ByteRange) (b : UInt8) : Bool := r.first ≤ b && b ≤ r.last

/-- The range of an ordinary continuation byte. -/
def continuation : ByteRange := ⟨0x80, 0xBF⟩

/-- The ranges of the bytes that must follow a lead byte, or `none` if no character starts
with it. -/
def tails (lead : UInt8) : Option (List ByteRange) :=
  if lead < 0x80 then some []
  else if lead < 0xC2 then none
  else if lead < 0xE0 then some [continuation]
  else if lead = 0xE0 then some [⟨0xA0, 0xBF⟩, continuation]
  else if lead = 0xED then some [⟨0x80, 0x9F⟩, continuation]
  else if lead < 0xF0 then some [continuation, continuation]
  else if lead = 0xF0 then some [⟨0x90, 0xBF⟩, continuation, continuation]
  else if lead < 0xF4 then some [continuation, continuation, continuation]
  else if lead = 0xF4 then some [⟨0x80, 0x8F⟩, continuation, continuation]
  else none

/-- How the bytes after a lead byte compare with the ranges it asks for. -/
inductive Fit where
  /-- Each range has its byte. -/
  | all
  /-- The byte after `matched` good ones is out of its range. -/
  | breaks (matched : Nat)
  /-- The input ends while every byte so far is good. -/
  | ends
deriving DecidableEq

/-- Compares the bytes with the ranges, one by one, after `matched` good ones. -/
def fit (matched : Nat) : List ByteRange → Bytes → Fit
  | [], _ => .all
  | _ :: _, [] => .ends
  | r :: rs, b :: bs => if r.contains b then fit (matched + 1) rs bs else .breaks matched

/-- The code point of a lead byte and the bytes that follow it: six bits from each of the
latter, and from the lead byte what its count marks leave. -/
def codePoint (lead : UInt8) (following : Bytes) : Nat :=
  let mark := match following.length with
    | 0 => 0
    | 1 => 0xC0
    | 2 => 0xE0
    | _ => 0xF0
  following.foldl (fun v b => v * 64 + (b.toNat - 0x80)) (lead.toNat - mark)

/-- Reads characters from the byte at `position` on. -/
def decodeFrom (position : Nat) : Bytes → Except Error (List Char)
  | [] => .ok []
  | lead :: bs =>
    match tails lead with
    | none => .error (.invalid position 1)
    | some ranges =>
      match fit 0 ranges bs with
      | .breaks matched => .error (.invalid position (1 + matched))
      | .ends => .error (.incomplete position)
      | .all =>
        let c := Char.ofNat (codePoint lead (bs.take ranges.length))
        (c :: ·) <$> decodeFrom (position + 1 + ranges.length) (bs.drop ranges.length)
termination_by bs => bs.length
decreasing_by rw [List.length_drop, List.length_cons]; omega

/-- The string that has these bytes, or the first fault. -/
def decode (bs : Bytes) : Except Error String := String.ofList <$> decodeFrom 0 bs

end ComputeNet.Utf8
