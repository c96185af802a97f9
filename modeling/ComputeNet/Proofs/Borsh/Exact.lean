import Mathlib.Algebra.Group.Nat.Defs
import Mathlib.Data.List.Nodup
import ComputeNet.Borsh.Basic

/-!
# Exact formats

A format is exact when nothing but the encoding of a value is read as that value: the bytes that
reading uses up are the encoding of what it gives. Then the front of the data of a record is known
field by field (`eq_encode_append_of_decode_prod`).
-/

namespace ComputeNet

private theorem ofLittleEndian_lt (bs : Bytes) : ofLittleEndian bs < 256 ^ bs.length := by
  induction bs with
  | nil => simp [ofLittleEndian]
  | cons b bs ih =>
    have hb : b.toNat < 256 := b.toNat_lt
    rw [ofLittleEndian, List.length_cons, Nat.pow_succ]
    omega

/-- Bytes are the digits of the number that they stand for. -/
private theorem littleEndian_ofLittleEndian (bs : Bytes) :
    littleEndian bs.length (ofLittleEndian bs) = bs := by
  induction bs with
  | nil => rfl
  | cons b bs ih =>
    have hb : b.toNat < 256 := b.toNat_lt
    have hdiv : (b.toNat + 256 * ofLittleEndian bs) / 256 = ofLittleEndian bs := by omega
    have hmod : UInt8.ofNat (b.toNat + 256 * ofLittleEndian bs) = b := by
      apply UInt8.toNat.inj
      rw [UInt8.toNat_ofNat']
      omega
    rw [List.length_cons, ofLittleEndian, littleEndian, hdiv, hmod, ih]

/-- A member is found under its own tag only. -/
theorem Enumeration.tag_of_ofTag? {α : Type} [Enumeration α] [DecidableEq α]
    (hnodup : (members : List α).Nodup) {byte : UInt8} {a : α} (h : ofTag? byte = some a) :
    tag a = byte := by
  obtain ⟨hlt, rfl⟩ := List.getElem?_eq_some_iff.mp h
  rw [tag, hnodup.idxOf_getElem]
  exact UInt8.ofNat_toNat

/-- A step that follows another is taken with what the other gives. -/
theorem Except.exists_of_bind_eq_ok {ε α β : Type} {x : Except ε α} {f : α → Except ε β} {b : β}
    (h : x >>= f = .ok b) : ∃ a, x = .ok a ∧ f a = .ok b := by
  cases x with
  | error e => cases h
  | ok a => exact ⟨a, rfl, h⟩

namespace Borsh

variable {α β : Type}

/-- What is read from the front of a byte string is what stands there. -/
class Exact (α : Type) [Borsh α] : Prop where
  eq_encode_append : ∀ {bs : Bytes} {a : α} {rest : Bytes},
    decode bs = .ok (a, rest) → bs = encode a ++ rest

export Exact (eq_encode_append)

theorem eq_append_of_take {n : Nat} {bs rest : Bytes} {front : FixedBytes n}
    (h : take n bs = .ok (front, rest)) : bs = front.toList ++ rest := by
  rw [take] at h
  split at h
  · cases h
    exact (List.take_append_drop n bs).symm
  · cases h

/-- A number that is read stands there in so many bytes. -/
theorem eq_append_of_takeNat {n v : Nat} {bs rest : Bytes} (h : takeNat n bs = .ok (v, rest)) :
    v < 256 ^ n ∧ bs = littleEndian n v ++ rest := by
  obtain ⟨⟨front, rest'⟩, hfront, hrest⟩ := Except.exists_of_bind_eq_ok h
  cases hrest
  have hlt := ofLittleEndian_lt front.toList
  have hdigits := littleEndian_ofLittleEndian front.toList
  rw [front.length_toList] at hlt hdigits
  exact ⟨hlt, hdigits.symm ▸ eq_append_of_take hfront⟩

/-- The first part of a pair stands in front of the second. -/
theorem eq_encode_append_of_decode_prod [Borsh α] [Exact α] [Borsh β] {bs rest : Bytes} {p : α × β}
    (h : decode bs = .ok (p, rest)) :
    ∃ middle, bs = encode p.1 ++ middle ∧ decode middle = .ok (p.2, rest) := by
  obtain ⟨⟨a, middle⟩, hfirst, h⟩ := Except.exists_of_bind_eq_ok h
  obtain ⟨⟨b, rest'⟩, hsecond, h⟩ := Except.exists_of_bind_eq_ok h
  cases h
  exact ⟨middle, eq_encode_append hfirst, hsecond⟩

/-- A record is read by reading its fields. -/
theorem exists_decode_of_ofFields [Borsh β] (fields : α → β) (make : β → α) {bs rest : Bytes}
    {a : α} (h : (ofFields fields make).decode bs = .ok (a, rest)) :
    ∃ b, decode bs = .ok (b, rest) ∧ make b = a := by
  obtain ⟨⟨b, rest'⟩, hfields, h⟩ := Except.exists_of_bind_eq_ok h
  cases h
  exact ⟨b, hfields, rfl⟩

end Borsh

end ComputeNet
