import ComputeNet.Proofs.Status.Listing

/-!
# Tasks that are not bound to a session

Without the slot of a session the status byte of a task stands eight bytes further to the front, and
another byte stands where the filters look for it: one of its node, of the number in its task type,
or of its chain proof (`Task.strayByte`). So the filters for a status let such a task through if
that byte happens to be the tag of the status, whatever the status of the task is
(`Task.allAccept_filters_iff_of_unbound`).
-/

namespace ComputeNet

open Borsh (encode eq_encode_append_of_decode_prod exists_decode_of_ofFields)

/-- A filter for one byte accepts the data that has the byte in its place. -/
private theorem Filter.accepts_byte_iff {offset : UInt64} (hlt : offset.toNat + 1 < UInt64.size)
    (b : UInt8)
    (data : Bytes) : Filter.accepts ⟨offset, [b]⟩ data = true ↔ data[offset.toNat]? = some b := by
  rw [accepts_iff]
  constructor
  · rintro ⟨-, before, after, rfl, hbefore⟩
    change before.length = offset.toNat at hbefore
    rw [← hbefore, List.getElem?_append_right (Nat.le_refl _), Nat.sub_self]
    rfl
  · intro hbyte
    obtain ⟨hplace, hget⟩ := List.getElem?_eq_some_iff.mp hbyte
    refine ⟨hlt, data.take offset.toNat, data.drop (offset.toNat + 1), ?_,
      List.length_take_of_le (Nat.le_of_lt hplace)⟩
    change data = data.take offset.toNat ++ b :: data.drop (offset.toNat + 1)
    rw [← hget, ← List.drop_eq_getElem_cons hplace, List.take_append_drop]

namespace Task

/-- The byte of a task without a session that stands where others have their status byte. -/
def strayByte (t : Task) : UInt8 :=
  match t.computeNode, t.taskType with
  | some node, _ => node.toList.getD 6 0
  | none, .completion model => UInt8.ofNat (model.toNat / 256 ^ 5)
  | none, .custom number => UInt8.ofNat (number.toNat / 256 ^ 5)
  | none, .humanInLoop => t.chainProof.toList.getD 5 0

private theorem exists_layout_of_unbound {data : Bytes} {t : Task} (h : Account.ofData data = .ok t)
    (hunbound : t.sessionSlotId = none) :
    ∃ rest, data = ((Account.discriminator Task).toList ++
      (encode t.taskSlotId ++ [0, Enumeration.tag t.status])) ++
        (encode t.computeNode ++ (encode t.taskType ++ (encode t.chainProof ++ rest))) := by
  obtain ⟨body, rest, rfl, hbody⟩ := Account.exists_of_ofData h
  obtain ⟨p, hfields, rfl⟩ := exists_decode_of_ofFields Task.fields _ hbody
  obtain ⟨_, rfl, hslot⟩ := eq_encode_append_of_decode_prod hfields
  obtain ⟨_, rfl, hsession⟩ := eq_encode_append_of_decode_prod hslot
  obtain ⟨_, rfl, hstatus⟩ := eq_encode_append_of_decode_prod hsession
  obtain ⟨_, rfl, hnode⟩ := eq_encode_append_of_decode_prod hstatus
  obtain ⟨_, rfl, htype⟩ := eq_encode_append_of_decode_prod hnode
  obtain ⟨rest, rfl, -⟩ := eq_encode_append_of_decode_prod htype
  refine ⟨rest, ?_⟩
  have hnone : encode p.2.1 = [0] := congrArg encode hunbound
  rw [hnone]
  simp only [List.append_assoc]
  rfl

/-- The sixth byte of a number. -/
theorem getElem?_encode_number (number : UInt64) (rest : Bytes) :
    (encode number ++ rest)[5]? = some (UInt8.ofNat (number.toNat / 256 ^ 5)) := by
  change some (UInt8.ofNat (number.toNat / 256 / 256 / 256 / 256 / 256)) = _
  simp only [Nat.div_div_eq_div_mul]
  rfl

theorem getElem?_encode_bytes {n : Nat} (bytes : FixedBytes n) (rest : Bytes) {i : Nat}
    (hi : i < n) : (encode bytes ++ rest)[i]? = some (bytes.toList.getD i 0) := by
  have hlt : i < bytes.toList.length := by rwa [bytes.length_toList]
  change (bytes.toList ++ rest)[i]? = _
  rw [List.getElem?_append_left hlt, List.getD_eq_getElem?_getD, List.getElem?_eq_getElem hlt]
  rfl

private theorem getElem?_of_unbound {data : Bytes} {t : Task} (h : Account.ofData data = .ok t)
    (hunbound : t.sessionSlotId = none) : data[statusOffset.toNat]? = some t.strayByte := by
  obtain ⟨rest, rfl⟩ := exists_layout_of_unbound h hunbound
  have hfront : ((Account.discriminator Task).toList ++
      (encode t.taskSlotId ++ [0, Enumeration.tag t.status])).length = 18 := by
    rw [List.length_append, List.length_append, (Account.discriminator Task).length_toList,
      Borsh.length_encode_slot]
    rfl
  have hplace : statusOffset.toNat = 18 + 7 := rfl
  rw [hplace, ← hfront, List.getElem?_append_right (Nat.le_add_right _ _), Nat.add_sub_cancel_left,
    strayByte]
  cases t.computeNode with
  | some node =>
    exact getElem?_encode_bytes node (encode t.taskType ++ (encode t.chainProof ++ rest))
      (by decide)
  | none =>
    cases t.taskType with
    | completion model => exact getElem?_encode_number model (encode t.chainProof ++ rest)
    | custom number => exact getElem?_encode_number number (encode t.chainProof ++ rest)
    | humanInLoop => exact getElem?_encode_bytes t.chainProof rest (by decide)

/-- The filters for a status go by the stray byte of a task without a session. -/
theorem allAccept_filters_iff_of_unbound {data : Bytes} {t : Task}
    (h : Account.ofData data = .ok t) (hunbound : t.sessionSlotId = none) (status : TaskStatus) :
    Filter.allAccept (Task.watch.filters status) data = true ↔
      t.strayByte = Enumeration.tag status := by
  have hbyte := getElem?_of_unbound h hunbound
  have hstatus : Filter.accepts ⟨statusOffset, [Enumeration.tag status]⟩ data = true ↔
      t.strayByte = Enumeration.tag status := by
    rw [Filter.accepts_byte_iff (by decide), hbyte, Option.some.injEq]
  obtain ⟨body, rest, rfl, -⟩ := Account.exists_of_ofData h
  have hkind := Account.accepts_discriminator (α := Task) body
  rw [← hstatus]
  simp only [Filter.allAccept, Watch.filters, List.all_cons, List.all_nil, Bool.and_true,
    Bool.and_eq_true]
  exact ⟨fun hpasses => hpasses.2, fun hpasses => ⟨hkind, hpasses⟩⟩

/-- A listing by status has a task without a session if the task has the status and its stray byte
is the tag of the status. -/
theorem mem_listByStatus_iff_of_unbound {e : Endpoint} {status : TaskStatus}
    {listed : List (Address × Task)} (hlisted : Client.listByStatus e .task status = .ok listed)
    {account : RawAccount} (haccount : account ∈ e.ledger.accounts) {t : Task}
    (h : Account.ofData account.data = .ok t) (hunbound : t.sessionSlotId = none) :
    (account.address, t) ∈ listed ↔ t.status = status ∧
      (e.faults.ignoreFilters = true ∨ t.strayByte = Enumeration.tag status) := by
  have hpasses : Filter.allAccept (e.effective (Task.watch.filters status)) account.data = true ↔
      e.faults.ignoreFilters = true ∨ t.strayByte = Enumeration.tag status := by
    rw [Endpoint.effective]
    by_cases hignore : e.faults.ignoreFilters = true
    · rw [if_pos hignore]
      exact ⟨fun _ => Or.inl hignore, fun _ => rfl⟩
    · rw [if_neg hignore, allAccept_filters_iff_of_unbound h hunbound]
      exact (or_iff_right hignore).symm
  rw [← hpasses]
  obtain ⟨accounts, hlisting, rfl⟩ := EntityKind.exists_listing_of_listByStatus hlisted
  refine Watch.mem_select_iff.trans ?_
  constructor
  · rintro ⟨other, hother, haddress, -, hstatus⟩
    obtain ⟨hstands, hfilters⟩ := (Endpoint.mem_listing_iff hlisting).mp hother
    cases e.ledger.eq_of_mem_of_address_eq hstands haccount haddress
    exact ⟨hstatus, hfilters⟩
  · rintro ⟨hstatus, hfilters⟩
    exact ⟨account, (Endpoint.mem_listing_iff hlisting).mpr ⟨haccount, hfilters⟩, rfl, h, hstatus⟩

end Task

end ComputeNet
