import Mathlib.Data.List.Dedup
import ComputeNet.Transaction.Message

/-!
# Who signs a message

The table of a message ascends by address, and an address signs in it exactly if one of its uses
signs. So the message of a payer's instructions is signed by the payer first and by every address
that some instruction wants to sign, each of them once (`signers_compile_perm`). After these come
the other addresses in use, each of them once as well (`addresses_compile_perm`).
-/

namespace ComputeNet.Message

/-- A table with one entry at most for each address. -/
def Ascending (table : List AccountRef) : Prop :=
  table.Pairwise fun a b => a.address < b.address

/-- Some reference to the address asks for its signature. -/
def Signs (refs : List AccountRef) (a : Address) : Prop :=
  ∃ r ∈ refs, r.address = a ∧ r.isSigner = true

/-- The addresses whose signatures are asked for, as often as they are: the payer's and those that
the instructions name as signers. -/
def required (payer : Address) (instructions : List Instruction) : List Address :=
  payer :: ((instructions.flatMap (·.accounts)).filter (·.isSigner)).map (·.address)

theorem signs_cons_iff {r : AccountRef} {refs : List AccountRef} {a : Address} :
    Signs (r :: refs) a ↔ (r.address = a ∧ r.isSigner = true) ∨ Signs refs a := by
  simp [Signs]

private theorem mem_required_iff {payer a : Address} {instructions : List Instruction} :
    a ∈ required payer instructions ↔ a = payer ∨ ∃ i ∈ instructions, Signs i.accounts a := by
  simp only [required, List.mem_cons, List.mem_map, List.mem_filter, List.mem_flatMap, Signs]
  apply or_congr_right
  constructor
  · rintro ⟨r, ⟨⟨i, hi, hr⟩, hsigner⟩, haddress⟩
    exact ⟨i, hi, r, hr, haddress, hsigner⟩
  · rintro ⟨i, hi, r, hr, haddress, hsigner⟩
    exact ⟨r, ⟨⟨i, hi, hr⟩, hsigner⟩, haddress⟩

/-! ## The table -/

/-- A use brings its own address into the table and no other. -/
theorem mem_map_address_addUse_iff {use : AccountRef} {table : List AccountRef} {a : Address} :
    a ∈ (addUse use table).map (·.address) ↔ a = use.address ∨ a ∈ table.map (·.address) := by
  induction table with
  | nil => simp [addUse]
  | cons d table ih =>
    rw [addUse]
    split
    next heq => simp [heq]
    next =>
      split
      · simp
      · simp only [List.map_cons, List.mem_cons, ih]
        tauto

private theorem ascending_addUse (use : AccountRef) {table : List AccountRef}
    (h : Ascending table) : Ascending (addUse use table) := by
  induction table with
  | nil => exact List.pairwise_singleton _ use
  | cons d table ih =>
    obtain ⟨hd, hrest⟩ := List.pairwise_cons.mp h
    rw [addUse]
    split
    · exact List.pairwise_cons.mpr ⟨hd, hrest⟩
    next hne =>
      split
      next hle =>
        have hlt : use.address < d.address := Std.lt_of_le_of_ne hle hne
        refine List.pairwise_cons.mpr ⟨fun e he => ?_, h⟩
        rcases List.mem_cons.mp he with rfl | he
        · exact hlt
        · exact Std.lt_trans hlt (hd e he)
      next hle =>
        refine List.pairwise_cons.mpr ⟨fun e he => ?_, ih hrest⟩
        rcases mem_map_address_addUse_iff.mp (List.mem_map_of_mem he) with haddress | hmem
        · rw [haddress]
          exact Std.not_le.mp hle
        · obtain ⟨e', he', haddress⟩ := List.mem_map.mp hmem
          rw [← haddress]
          exact hd e' he'

/-- Rights at one address add up. -/
private theorem signs_addUse_iff {use : AccountRef} {table : List AccountRef} {a : Address} :
    Signs (addUse use table) a ↔ (use.address = a ∧ use.isSigner = true) ∨ Signs table a := by
  induction table with
  | nil => exact signs_cons_iff
  | cons d table ih =>
    rw [addUse]
    split
    next heq =>
      rw [signs_cons_iff, signs_cons_iff, heq, Bool.or_eq_true]
      tauto
    next =>
      split
      · exact signs_cons_iff
      · rw [signs_cons_iff, signs_cons_iff, ih]
        tauto

private theorem ascending_foldl_addUse (uses : List AccountRef) {table : List AccountRef}
    (h : Ascending table) : Ascending (uses.foldl (fun table use => addUse use table) table) := by
  induction uses generalizing table with
  | nil => exact h
  | cons use uses ih => exact ih (ascending_addUse use h)

private theorem signs_foldl_addUse_iff {uses table : List AccountRef} {a : Address} :
    Signs (uses.foldl (fun table use => addUse use table) table) a ↔
      Signs uses a ∨ Signs table a := by
  induction uses generalizing table with
  | nil => simp [Signs]
  | cons use uses ih =>
    rw [List.foldl_cons, ih, signs_addUse_iff, signs_cons_iff]
    tauto

theorem ascending_rights (instructions : List Instruction) : Ascending (rights instructions) :=
  ascending_foldl_addUse (uses instructions) List.Pairwise.nil

/-- An address signs if an instruction names it as a signer; a program does not. -/
private theorem signs_rights_iff {instructions : List Instruction} {a : Address} :
    Signs (rights instructions) a ↔ ∃ i ∈ instructions, Signs i.accounts a := by
  rw [rights, signs_foldl_addUse_iff]
  simp only [uses, Signs, AccountRef.readonly, List.mem_flatMap, List.mem_cons, List.not_mem_nil,
    false_and, exists_false, or_false]
  constructor
  · rintro ⟨r, ⟨i, hi, rfl | hr⟩, haddress, hsigner⟩
    · cases hsigner
    · exact ⟨i, hi, r, hr, haddress, hsigner⟩
  · rintro ⟨i, hi, r, hr, haddress, hsigner⟩
    exact ⟨r, ⟨i, hi, Or.inr hr⟩, haddress, hsigner⟩

/-! ## The signers -/

/-- The signers that are written and those that are only read are all signers, and so with those
that do not sign. -/
theorem having_append_having_perm (table : List AccountRef) (isSigner : Bool) :
    (having table isSigner true ++ having table isSigner false).Perm
      ((table.filter (·.isSigner = isSigner)).map (·.address)) := by
  have hwritable : table.filter (fun e => e.isSigner = isSigner ∧ e.isWritable = true) =
      (table.filter (·.isSigner = isSigner)).filter (·.isWritable) := by
    rw [List.filter_filter]
    apply List.filter_congr
    intro e _
    simp [Bool.and_comm]
  have hreadonly : table.filter (fun e => e.isSigner = isSigner ∧ e.isWritable = false) =
      (table.filter (·.isSigner = isSigner)).filter (!·.isWritable) := by
    rw [List.filter_filter]
    apply List.filter_congr
    intro e _
    simp [Bool.and_comm]
  rw [having, having, ← List.map_append, hwritable, hreadonly]
  exact (List.filter_append_perm AccountRef.isWritable _).map _

theorem signers_compile (payer : Address) (blockhash : Digest) (instructions : List Instruction) :
    (compile payer blockhash instructions).signers =
      payer :: (having ((rights instructions).filter (·.address ≠ payer)) true true ++
        having ((rights instructions).filter (·.address ≠ payer)) true false) := by
  rw [signers, compile]
  dsimp only
  rw [List.append_assoc, ← List.length_append, List.take_left, List.cons_append]

theorem mem_map_address_filter_iff {payer a : Address} {instructions : List Instruction} :
    a ∈ (((rights instructions).filter (·.address ≠ payer)).filter
        (·.isSigner = true)).map (·.address) ↔
      a ≠ payer ∧ ∃ i ∈ instructions, Signs i.accounts a := by
  rw [← signs_rights_iff, Signs]
  simp only [List.mem_map, List.mem_filter, decide_eq_true_eq]
  constructor
  · rintro ⟨r, ⟨⟨hr, hne⟩, hsigner⟩, rfl⟩
    exact ⟨hne, r, hr, rfl, hsigner⟩
  · rintro ⟨hne, r, hr, rfl, hsigner⟩
    exact ⟨r, ⟨⟨hr, hne⟩, hsigner⟩, rfl⟩

private theorem nodup_signers_compile (payer : Address) (blockhash : Digest)
    (instructions : List Instruction) :
    (compile payer blockhash instructions).signers.Nodup := by
  rw [signers_compile, ((having_append_having_perm _ true).cons payer).nodup_iff, List.nodup_cons]
  constructor
  · intro hpayer
    exact (mem_map_address_filter_iff.mp hpayer).1 rfl
  · have hascending : (((rights instructions).filter (·.address ≠ payer)).filter
        (·.isSigner = true)).Pairwise fun a b => a.address < b.address :=
      ((ascending_rights instructions).filter _).filter _
    exact List.pairwise_map.mpr (hascending.imp Std.ne_of_lt)

theorem mem_signers_compile_iff {payer a : Address} {blockhash : Digest}
    {instructions : List Instruction} :
    a ∈ (compile payer blockhash instructions).signers ↔ a ∈ required payer instructions := by
  rw [signers_compile, ((having_append_having_perm _ true).cons payer).mem_iff, List.mem_cons,
    mem_map_address_filter_iff, mem_required_iff]
  tauto

/-- A message is signed by those whose signatures are asked for, each of them once. -/
theorem signers_compile_perm (payer : Address) (blockhash : Digest)
    (instructions : List Instruction) :
    (compile payer blockhash instructions).signers.Perm (required payer instructions).dedup := by
  refine (List.perm_ext_iff_of_nodup (nodup_signers_compile _ _ _) (List.nodup_dedup _)).mpr ?_
  intro a
  rw [mem_signers_compile_iff, List.mem_dedup]

/-! ## The addresses -/

/-- The addresses that a payer's instructions use, as often as they do. -/
def keys (payer : Address) (instructions : List Instruction) : List Address :=
  payer :: (uses instructions).map (·.address)

private theorem mem_map_address_foldl_addUse_iff {uses table : List AccountRef} {a : Address} :
    a ∈ (uses.foldl (fun table use => addUse use table) table).map (·.address) ↔
      a ∈ uses.map (·.address) ∨ a ∈ table.map (·.address) := by
  induction uses generalizing table with
  | nil => simp
  | cons use uses ih =>
    rw [List.foldl_cons, ih, mem_map_address_addUse_iff, List.map_cons, List.mem_cons]
    tauto

private theorem mem_map_address_rights_iff {instructions : List Instruction} {a : Address} :
    a ∈ (rights instructions).map (·.address) ↔ a ∈ (uses instructions).map (·.address) := by
  rw [rights, mem_map_address_foldl_addUse_iff, List.map_nil]
  simp

/-- After the payer the table holds the other addresses, whatever their rights. -/
private theorem addresses_compile_perm_cons (payer : Address) (blockhash : Digest)
    (instructions : List Instruction) :
    (compile payer blockhash instructions).addresses.Perm
      (payer :: ((rights instructions).filter (·.address ≠ payer)).map (·.address)) := by
  let others := (rights instructions).filter (·.address ≠ payer)
  have hsides : (others.filter (·.isSigner = true) ++ others.filter (·.isSigner = false)).Perm
      others := by
    have hfalse : others.filter (·.isSigner = false) = others.filter fun e =>
        !decide (e.isSigner = true) := by
      apply List.filter_congr
      intro e _
      simp
    rw [hfalse]
    exact List.filter_append_perm _ others
  have hparts := (having_append_having_perm others true).append
    (having_append_having_perm others false)
  rw [← List.map_append, ← List.append_assoc] at hparts
  exact (hparts.trans (hsides.map _)).cons payer

/-- The table of a message holds every address in use, each of them once. -/
theorem addresses_compile_perm (payer : Address) (blockhash : Digest)
    (instructions : List Instruction) :
    (compile payer blockhash instructions).addresses.Perm (keys payer instructions).dedup := by
  refine (addresses_compile_perm_cons payer blockhash instructions).trans
    ((List.perm_ext_iff_of_nodup ?_ (List.nodup_dedup _)).mpr ?_)
  · refine List.nodup_cons.mpr ⟨by simp, ?_⟩
    exact List.pairwise_map.mpr
      (((ascending_rights instructions).filter _).imp Std.ne_of_lt)
  · intro a
    have hothers : a ∈ ((rights instructions).filter (·.address ≠ payer)).map (·.address) ↔
        a ≠ payer ∧ a ∈ (uses instructions).map (·.address) := by
      rw [← mem_map_address_rights_iff]
      simp only [List.mem_map, List.mem_filter, decide_eq_true_eq]
      constructor
      · rintro ⟨e, ⟨he, hne⟩, rfl⟩
        exact ⟨hne, e, he, rfl⟩
      · rintro ⟨hne, e, he, rfl⟩
        exact ⟨e, ⟨he, hne⟩, rfl⟩
    rw [List.mem_dedup, keys, List.mem_cons, List.mem_cons, hothers]
    tauto

end ComputeNet.Message
