/-!
# Byte strings

Byte strings are lists of bytes. `FixedBytes n` holds exactly `n` of them: addresses, digests,
signatures and discriminators are of this kind. `littleEndian` and `bigEndian` write a number in
a given count of bytes; `ofLittleEndian` and `ofBigEndian` read one back.
-/

namespace ComputeNet

/-- A string of bytes. -/
abbrev Bytes := List UInt8

/-- The `n` low bytes of a number, least significant first. -/
def littleEndian : Nat → Nat → Bytes
  | 0, _ => []
  | n + 1, v => UInt8.ofNat v :: littleEndian n (v / 256)

/-- The number whose bytes these are, least significant first. -/
def ofLittleEndian : Bytes → Nat
  | [] => 0
  | b :: bs => b.toNat + 256 * ofLittleEndian bs

/-- The `n` low bytes of a number, most significant first. -/
def bigEndian (n v : Nat) : Bytes := (littleEndian n v).reverse

/-- The number whose bytes these are, most significant first. -/
def ofBigEndian (bs : Bytes) : Nat := ofLittleEndian bs.reverse

@[simp] theorem length_littleEndian (n v : Nat) : (littleEndian n v).length = n := by
  induction n generalizing v with
  | zero => rfl
  | succ n ih => simp [littleEndian, ih]

@[simp] theorem length_bigEndian (n v : Nat) : (bigEndian n v).length = n := by
  simp [bigEndian]

/-- A byte string of a given length. -/
structure FixedBytes (n : Nat) where
  toList : Bytes
  length_toList : toList.length = n
deriving DecidableEq

namespace FixedBytes

/-- The byte string as one of length `n`, if it has that length. -/
def ofList? (n : Nat) (bs : Bytes) : Option (FixedBytes n) :=
  if h : bs.length = n then some ⟨bs, h⟩ else none

/-- The first `n` bytes of a list that has as many. -/
def take (n : Nat) (bs : Bytes) (h : n ≤ bs.length) : FixedBytes n :=
  ⟨bs.take n, by simp [h]⟩

def ofNat (n v : Nat) : FixedBytes n := ⟨littleEndian n v, by simp⟩

def replicate (n : Nat) (b : UInt8) : FixedBytes n := ⟨List.replicate n b, by simp⟩

instance : Inhabited (FixedBytes n) := ⟨replicate n 0⟩

/-- Byte strings are ordered like words in a dictionary. -/
instance : LE (FixedBytes n) := ⟨fun a b => a.toList ≤ b.toList⟩

instance : LT (FixedBytes n) := ⟨fun a b => a.toList < b.toList⟩

instance : DecidableLE (FixedBytes n) :=
  fun a b => inferInstanceAs (Decidable (a.toList ≤ b.toList))

theorem toList_injective {a b : FixedBytes n} (h : a.toList = b.toList) : a = b := by
  cases a
  cases b
  cases h
  rfl

theorem le_length_append (front : FixedBytes n) (rest : Bytes) :
    n ≤ (front.toList ++ rest).length := by
  rw [List.length_append, front.length_toList]
  exact Nat.le_add_right ..

/-- What is taken off the front is what was put there. -/
theorem take_append (front : FixedBytes n) (rest : Bytes)
    (h : n ≤ (front.toList ++ rest).length) : take n (front.toList ++ rest) h = front :=
  toList_injective (List.take_left' front.length_toList)

instance : Std.IsLinearOrder (FixedBytes n) where
  le_refl a := Std.le_refl a.toList
  le_trans _ _ _ hab hbc := Std.le_trans (α := Bytes) hab hbc
  le_antisymm _ _ hab hba := toList_injective (Std.le_antisymm hab hba)
  le_total a b := Std.le_total (a := a.toList) (b := b.toList)

instance : Std.LawfulOrderLT (FixedBytes n) where
  lt_iff a b := Std.lt_iff_le_and_not_ge (a := a.toList) (b := b.toList)

end FixedBytes

end ComputeNet
