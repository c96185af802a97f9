import Mathlib.Data.List.Nodup
import ComputeNet.Address.Derived
import ComputeNet.Proofs.Borsh.Lawful

/-!
# Distinct accounts have distinct addresses

The seeds of an account are hashed without separators. Still they can be told apart: their length
and first byte fix the kind of the account (`shape`), and the keys of a kind have fixed lengths. So
the hashed bytes tell the program, the account and the bump (`preimage_injective`), and two accounts
share an address only if two different byte strings share a hash (`address_eq_iff`).
-/

namespace ComputeNet

/-- Two different byte strings that have the same hash. -/
def Sha256.Collision (message message' : Bytes) : Prop :=
  message ≠ message' ∧ hash message = hash message'

namespace Derivation

/-- The length of the seeds of an account and their first byte. The seeds of agents, of treasuries
and of vaults are of one length; those of nodes and of treasuries begin alike, and so do those of
sessions and of vaults. -/
def shape : Derivation → Nat × UInt8
  | .networkConfig _ => (50, 100)
  | .nodeInfo _ => (41, 110)
  | .nodeTreasury _ => (45, 110)
  | .agent .. => (45, 97)
  | .session .. => (47, 115)
  | .sessionVault _ => (45, 115)
  | .task .. => (44, 116)
  | .contribution .. => (76, 99)

private theorem length_slotSeed (slot : UInt64) : (slotSeed slot).length = 8 :=
  length_littleEndian 8 slot.toNat

private theorem slotSeed_injective {slot slot' : UInt64} (h : slotSeed slot = slotSeed slot') :
    slot = slot' := by
  have hnumber := congrArg ofLittleEndian h
  unfold slotSeed at hnumber
  rw [ofLittleEndian_littleEndian slot.toNat_lt, ofLittleEndian_littleEndian slot'.toNat_lt]
    at hnumber
  exact UInt64.toNat.inj hnumber

theorem length_flatten_seeds (d : Derivation) : d.seeds.flatten.length = d.shape.1 := by
  cases d <;> simp [seeds, shape, FixedBytes.length_toList, length_slotSeed] <;> decide

theorem head?_flatten_seeds (d : Derivation) : d.seeds.flatten.head? = some d.shape.2 := by
  cases d <;> rfl

private theorem shape_eq_of_flatten_seeds {d d' : Derivation}
    (h : d.seeds.flatten = d'.seeds.flatten) : d.shape = d'.shape := by
  have hlength := congrArg List.length h
  rw [length_flatten_seeds, length_flatten_seeds] at hlength
  have hhead := congrArg List.head? h
  rw [head?_flatten_seeds, head?_flatten_seeds] at hhead
  exact Prod.ext hlength (Option.some.inj hhead)

/-- Two keys after the word for a kind are told apart if the first has a fixed length. -/
theorem keys_eq_of_flatten {word : Bytes} {n : Nat} {key key' : FixedBytes n} {last last' : Bytes}
    (h : [word, key.toList, last].flatten = [word, key'.toList, last'].flatten) :
    key = key' ∧ last = last' := by
  simp only [List.flatten_cons, List.flatten_nil, List.append_nil] at h
  have hkeys := List.append_cancel_left h
  obtain ⟨hkey, hlast⟩ := List.append_inj hkeys (key.length_toList.trans key'.length_toList.symm)
  exact ⟨FixedBytes.toList_injective hkey, hlast⟩

theorem key_eq_of_flatten {word : Bytes} {n : Nat} {key key' : FixedBytes n}
    (h : [word, key.toList].flatten = [word, key'.toList].flatten) : key = key' := by
  simp only [List.flatten_cons, List.flatten_nil, List.append_nil] at h
  exact FixedBytes.toList_injective (List.append_cancel_left h)

/-- Seeds tell the account, though nothing stands between them. -/
private theorem flatten_seeds_injective {d d' : Derivation}
    (h : d.seeds.flatten = d'.seeds.flatten) : d = d' := by
  have hshape := shape_eq_of_flatten_seeds h
  cases d <;> cases d' <;> simp [shape] at hshape
  case networkConfig.networkConfig => rw [key_eq_of_flatten h]
  case nodeInfo.nodeInfo => rw [key_eq_of_flatten h]
  case nodeTreasury.nodeTreasury => rw [key_eq_of_flatten h]
  case sessionVault.sessionVault => rw [key_eq_of_flatten h]
  case contribution.contribution =>
    obtain ⟨rfl, hcontributor⟩ := keys_eq_of_flatten h
    rw [FixedBytes.toList_injective hcontributor]
  all_goals
    obtain ⟨rfl, hslot⟩ := keys_eq_of_flatten h
    rw [slotSeed_injective hslot]

/-- The bytes that are hashed tell the program, the account and the bump. -/
theorem preimage_injective {program program' : Address} {d d' : Derivation} {bump bump' : UInt8}
    (h : d.preimage program bump = d'.preimage program' bump') :
    program = program' ∧ d = d' ∧ bump = bump' := by
  unfold preimage at h
  have hfront := List.append_cancel_right h
  have hlength : (bump :: program.toList).length = (bump' :: program'.toList).length := by
    rw [List.length_cons, List.length_cons, program.length_toList, program'.length_toList]
  obtain ⟨hseeds, hback⟩ := List.append_inj' hfront hlength
  obtain ⟨hbump, hprogram⟩ := List.cons.inj hback
  exact ⟨FixedBytes.toList_injective hprogram, flatten_seeds_injective hseeds, hbump⟩

/-- With whatever bumps, different accounts share an address only by a collision. -/
theorem addressWith_eq_iff {program program' : Address} {d d' : Derivation} {bump bump' : UInt8} :
    d.addressWith program bump = d'.addressWith program' bump' ↔
      (program = program' ∧ d = d' ∧ bump = bump') ∨
        Sha256.Collision (d.preimage program bump) (d'.preimage program' bump') := by
  constructor
  · intro h
    by_cases hsame : d.preimage program bump = d'.preimage program' bump'
    · exact Or.inl (preimage_injective hsame)
    · exact Or.inr ⟨hsame, h⟩
  · rintro (⟨rfl, rfl, rfl⟩ | ⟨-, hhash⟩)
    · rfl
    · exact hhash

theorem address_eq_iff {program program' : Address} {d d' : Derivation} :
    d.address program = d'.address program' ↔ (program = program' ∧ d = d') ∨
      Sha256.Collision (d.preimage program (d.bump program))
        (d'.preimage program' (d'.bump program')) := by
  unfold address
  rw [addressWith_eq_iff]
  constructor
  · rintro (⟨hprogram, hd, -⟩ | hcollision)
    · exact Or.inl ⟨hprogram, hd⟩
    · exact Or.inr hcollision
  · rintro (⟨rfl, rfl⟩ | hcollision)
    · exact Or.inl ⟨rfl, rfl, rfl⟩
    · exact Or.inr hcollision

/-! ## The tasks of a network -/

theorem length_tasks {program network : Address} {count : Nat} :
    (tasks program network count).length = count := by
  rw [tasks, List.length_map, List.length_range]

theorem getElem?_tasks {program network : Address} {slot count : UInt64} (h : slot < count) :
    (tasks program network count.toNat)[slot.toNat]? =
      some ((Derivation.task network slot).address program) := by
  rw [tasks, List.getElem?_map, List.getElem?_range (UInt64.lt_iff_toNat_lt.mp h), Option.map_some,
    UInt64.ofNat_toNat]

/-- The addresses of the first tasks are pairwise different if no two of them collide. -/
private theorem nodup_tasks_iff {program network : Address} {count : UInt64} :
    (tasks program network count.toNat).Nodup ↔ ∀ slot < count, ∀ slot' < count, slot ≠ slot' →
      ¬ Sha256.Collision
        ((task network slot).preimage program ((task network slot).bump program))
        ((task network slot').preimage program ((task network slot').bump program)) := by
  have hplace {i : Nat} (hi : i < count.toNat) : (UInt64.ofNat i).toNat = i :=
    UInt64.toNat_ofNat_of_lt' (Nat.lt_trans hi count.toNat_lt)
  rw [tasks, List.nodup_map_iff_inj_on List.nodup_range]
  constructor
  · intro hdistinct slot hslot slot' hslot' hne hcollision
    have hsame := hdistinct slot.toNat (List.mem_range.mpr (UInt64.lt_iff_toNat_lt.mp hslot))
      slot'.toNat (List.mem_range.mpr (UInt64.lt_iff_toNat_lt.mp hslot'))
    rw [UInt64.ofNat_toNat, UInt64.ofNat_toNat, address_eq_iff] at hsame
    exact hne (UInt64.toNat.inj (hsame (Or.inr hcollision)))
  · intro hfree i hi j hj h
    rw [List.mem_range] at hi hj
    by_contra hne
    rcases address_eq_iff.mp h with ⟨-, hsame⟩ | hcollision
    · have hslots := congrArg UInt64.toNat (task.inj hsame).2
      rw [hplace hi, hplace hj] at hslots
      exact hne hslots
    · have hlt {i : Nat} (hi : i < count.toNat) : UInt64.ofNat i < count := by
        rw [UInt64.lt_iff_toNat_lt, hplace hi]
        exact hi
      refine hfree _ (hlt hi) _ (hlt hj) (fun hslots => hne ?_) hcollision
      have hnumbers := congrArg UInt64.toNat hslots
      rwa [hplace hi, hplace hj] at hnumbers

/-- Accounts that differ in kind, program or keys have different addresses unless two different byte
strings have the same hash, whatever their bumps. In particular the tasks of a network, however many
they are, have one address each. -/
theorem distinct_unless_collision (program program' network : Address) (d d' : Derivation)
    (count : UInt64) :
    (∀ bump bump', d.addressWith program bump = d'.addressWith program' bump' ↔
      (program = program' ∧ d = d' ∧ bump = bump') ∨
        Sha256.Collision (d.preimage program bump) (d'.preimage program' bump')) ∧
    (d.address program = d'.address program' ↔ (program = program' ∧ d = d') ∨
      Sha256.Collision (d.preimage program (d.bump program))
        (d'.preimage program' (d'.bump program'))) ∧
    (tasks program network count.toNat).length = count.toNat ∧
    ((tasks program network count.toNat).Nodup ↔
      ∀ slot < count, ∀ slot' < count, slot ≠ slot' → ¬ Sha256.Collision
        ((task network slot).preimage program ((task network slot).bump program))
        ((task network slot').preimage program ((task network slot').bump program))) :=
  ⟨fun _ _ => addressWith_eq_iff, address_eq_iff, length_tasks, nodup_tasks_iff⟩

end Derivation

end ComputeNet
