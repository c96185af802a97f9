import Mathlib.Data.List.Forall2
import ComputeNet.Proofs.Transaction.Signers

/-!
# Messages that can be written

A message has a written form if none of its lengths needs more than sixteen bits
(`isSome_encode_iff`). For the message of a payer's instructions this is a matter of the
instructions alone, as long as they use few addresses (`isSome_encode_compile_iff`). Then its counts
fit into bytes as well (`isCounted_compile`).
-/

namespace ComputeNet

section mapM

variable {α β : Type} {f : α → Option β} {as : List α}

theorem mapM_eq_none_of_mem {a : α} (ha : a ∈ as) (hnone : f a = none) : as.mapM f = none := by
  induction as with
  | nil => cases ha
  | cons b as ih =>
    rw [List.mapM_cons]
    rcases List.mem_cons.mp ha with rfl | ha
    · rw [hnone]
      rfl
    · rw [ih ha]
      cases f b <;> rfl

theorem exists_mapM_eq_some (h : ∀ a ∈ as, ∃ b, f a = some b) :
    ∃ bs, as.mapM f = some bs ∧ List.Forall₂ (fun a b => f a = some b) as bs := by
  induction as with
  | nil => exact ⟨[], rfl, List.Forall₂.nil⟩
  | cons a as ih =>
    obtain ⟨b, hb⟩ := h a List.mem_cons_self
    obtain ⟨bs, hbs, hall⟩ := ih fun c hc => h c (List.mem_cons_of_mem a hc)
    refine ⟨b :: bs, ?_, List.Forall₂.cons hb hall⟩
    rw [List.mapM_cons, hb, hbs]
    rfl

private theorem isSome_mapM_iff : (as.mapM f).isSome = true ↔ ∀ a ∈ as, (f a).isSome = true := by
  constructor
  · intro h a ha
    by_contra hnone
    rw [mapM_eq_none_of_mem ha (by simpa using hnone)] at h
    cases h
  · intro h
    obtain ⟨bs, hbs, -⟩ := exists_mapM_eq_some fun a ha => Option.isSome_iff_exists.mp (h a ha)
    rw [hbs]
    rfl

end mapM

namespace Message

private theorem isSome_encodeInstruction_iff {i : CompiledInstruction} :
    (encodeInstruction i).isSome = true ↔
      i.accounts.length < 0x10000 ∧ i.data.length < 0x10000 := by
  rw [← isSome_compactLength_iff, ← isSome_compactLength_iff, encodeInstruction]
  cases compactLength i.accounts.length <;> cases compactLength i.data.length <;> simp

theorem isSome_encode_iff {m : Message} :
    m.encode.isSome = true ↔ m.addresses.length < 0x10000 ∧ m.instructions.length < 0x10000 ∧
      ∀ i ∈ m.instructions, i.accounts.length < 0x10000 ∧ i.data.length < 0x10000 := by
  simp only [← isSome_encodeInstruction_iff, ← isSome_mapM_iff]
  rw [← isSome_compactLength_iff, ← isSome_compactLength_iff, encode]
  cases compactLength m.addresses.length <;> cases compactLength m.instructions.length <;>
    cases m.instructions.mapM encodeInstruction <;> simp

/-- No length in some instructions needs more than sixteen bits. -/
structure Writable (instructions : List Instruction) : Prop where
  count : instructions.length < 0x10000
  accounts : ∀ i ∈ instructions, i.accounts.length < 0x10000
  data : ∀ i ∈ instructions, i.data.length < 0x10000

section few

variable {payer : Address} {instructions : List Instruction}
  (hfew : (keys payer instructions).dedup.length ≤ 255) (blockhash : Digest)

include hfew

theorem length_addresses_compile_le :
    (compile payer blockhash instructions).addresses.length ≤ 255 := by
  rwa [(addresses_compile_perm payer blockhash instructions).length_eq]

/-- Counts that add up to no more than the number of addresses fit into bytes. -/
theorem isCounted_compile : (compile payer blockhash instructions).isCounted = true := by
  have hle := length_addresses_compile_le hfew blockhash
  simp only [compile, List.length_append] at hle
  simp only [isCounted, compile, Bool.and_eq_true]
  exact ⟨⟨decide_eq_true (by omega), decide_eq_true (by omega)⟩, decide_eq_true (by omega)⟩

theorem isSome_encode_compile_iff :
    (compile payer blockhash instructions).encode.isSome = true ↔ Writable instructions := by
  have hle : (compile payer blockhash instructions).addresses.length < 0x10000 :=
    Nat.lt_of_le_of_lt (length_addresses_compile_le hfew blockhash) (by decide)
  rw [isSome_encode_iff, and_iff_right hle]
  simp only [compile, List.length_map, List.forall_mem_map]
  constructor
  · rintro ⟨hcount, hall⟩
    exact ⟨hcount, fun i hi => (hall i hi).1, fun i hi => (hall i hi).2⟩
  · rintro ⟨hcount, haccounts, hdata⟩
    exact ⟨hcount, fun i hi => ⟨haccounts i hi, hdata i hi⟩⟩

end few

end Message

end ComputeNet
