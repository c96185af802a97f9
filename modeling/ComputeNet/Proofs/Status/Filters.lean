import ComputeNet.Proofs.Account.Correspondence
import ComputeNet.Proofs.Status.Window
import ComputeNet.Status.Watch

/-!
# What the filters of a watch let through

The endpoint looks at the discriminator and at one byte of account data. In the accounts of nodes,
agents and sessions that byte holds the status; in those of tasks it does if the task is bound to a
session (`EntityKind.Bound`). So no account that a watch is after is filtered out
(`EntityKind.allAccept_filters`).
-/

namespace ComputeNet

open Borsh (encode eq_encode_append_of_decode_prod exists_decode_of_ofFields)

namespace Account

variable {α σ : Type} [Account α] [Enumeration σ] [DecidableEq σ]

/-- The filter for an account type accepts data that begins with its discriminator. -/
theorem accepts_discriminator (rest : Bytes) :
    Filter.accepts ⟨0, (discriminator α).toList⟩ ((discriminator α).toList ++ rest) = true := by
  have hlength : (discriminator α).toList.length = 8 := (discriminator α).length_toList
  apply Filter.accepts_of_eq_append (by rw [List.nil_append]) rfl
  rw [hlength]
  decide

/-- The filters for a status accept account data that has its tag where the status byte stands. -/
theorem allAccept_filters {statusOffset : UInt64} {keyOf : α → Option EntityKey} {statusOf : α → σ}
    {status : σ} {data front rest : Bytes}
    (hdata : data = (discriminator α).toList ++ (front ++ Enumeration.tag status :: rest))
    (hfront : 8 + front.length = statusOffset.toNat)
    (hlt : statusOffset.toNat + 1 < UInt64.size) :
    Filter.allAccept ((watch statusOffset keyOf statusOf).filters status) data = true := by
  have hkind : Filter.accepts ⟨0, (discriminator α).toList⟩ data = true := by
    rw [hdata]
    exact accepts_discriminator _
  have hstatus : Filter.accepts ⟨statusOffset, [Enumeration.tag status]⟩ data = true := by
    have hplace : ((discriminator α).toList ++ front).length = statusOffset.toNat := by
      rw [List.length_append, (discriminator α).length_toList, hfront]
    apply Filter.accepts_of_eq_append (by rw [List.append_assoc]; exact hdata) hplace
    rw [hplace]
    exact hlt
  simp only [Filter.allAccept, Watch.filters, List.all_cons, List.all_nil, Bool.and_true,
    Bool.and_eq_true]
  exact ⟨hkind, hstatus⟩

end Account

/-! ## Where the status stands -/

theorem Borsh.length_encode_address (a : Address) : (encode a).length = 32 := a.length_toList

theorem Borsh.length_encode_slot (slot : UInt64) : (encode slot).length = 8 :=
  length_littleEndian 8 slot.toNat

theorem NodeInfo.exists_layout {data : Bytes} {n : NodeInfo} (h : Account.ofData data = .ok n) :
    ∃ rest, data = (Account.discriminator NodeInfo).toList ++
      ((encode n.owner ++ (encode n.nodePubkey ++ encode n.nodeType)) ++
        Enumeration.tag n.status :: rest) := by
  obtain ⟨body, rest, rfl, hbody⟩ := Account.exists_of_ofData h
  obtain ⟨p, hfields, rfl⟩ := exists_decode_of_ofFields NodeInfo.fields _ hbody
  obtain ⟨_, rfl, howner⟩ := eq_encode_append_of_decode_prod hfields
  obtain ⟨_, rfl, hpubkey⟩ := eq_encode_append_of_decode_prod howner
  obtain ⟨_, rfl, htype⟩ := eq_encode_append_of_decode_prod hpubkey
  obtain ⟨rest, rfl, -⟩ := eq_encode_append_of_decode_prod htype
  exact ⟨rest, by simp only [List.append_assoc]; rfl⟩

theorem NodeInfo.allAccept_filters {data : Bytes} {n : NodeInfo} (h : Account.ofData data = .ok n) :
    Filter.allAccept (NodeInfo.watch.filters n.status) data = true := by
  obtain ⟨rest, hdata⟩ := exists_layout h
  refine Account.allAccept_filters hdata ?_ (by decide)
  rw [List.length_append, List.length_append, Borsh.length_encode_address,
    Borsh.length_encode_address]
  rfl

theorem Agent.exists_layout {data : Bytes} {a : Agent} (h : Account.ofData data = .ok a) :
    ∃ rest, data = (Account.discriminator Agent).toList ++
      ((encode a.agentSlotId ++ encode a.owner) ++ Enumeration.tag a.status :: rest) := by
  obtain ⟨body, rest, rfl, hbody⟩ := Account.exists_of_ofData h
  obtain ⟨p, hfields, rfl⟩ := exists_decode_of_ofFields Agent.fields _ hbody
  obtain ⟨_, rfl, hslot⟩ := eq_encode_append_of_decode_prod hfields
  obtain ⟨_, rfl, howner⟩ := eq_encode_append_of_decode_prod hslot
  obtain ⟨rest, rfl, -⟩ := eq_encode_append_of_decode_prod howner
  exact ⟨rest, by simp only [List.append_assoc]; rfl⟩

theorem Agent.allAccept_filters {data : Bytes} {a : Agent} (h : Account.ofData data = .ok a) :
    Filter.allAccept (Agent.watch.filters a.status) data = true := by
  obtain ⟨rest, hdata⟩ := exists_layout h
  refine Account.allAccept_filters hdata ?_ (by decide)
  rw [List.length_append, Borsh.length_encode_slot, Borsh.length_encode_address]
  rfl

theorem Session.exists_layout {data : Bytes} {s : Session} (h : Account.ofData data = .ok s) :
    ∃ rest, data = (Account.discriminator Session).toList ++
      ((encode s.sessionSlotId ++ (encode s.owner ++ encode s.task)) ++
        Enumeration.tag s.status :: rest) := by
  obtain ⟨body, rest, rfl, hbody⟩ := Account.exists_of_ofData h
  obtain ⟨p, hfields, rfl⟩ := exists_decode_of_ofFields Session.fields _ hbody
  obtain ⟨_, rfl, hslot⟩ := eq_encode_append_of_decode_prod hfields
  obtain ⟨_, rfl, howner⟩ := eq_encode_append_of_decode_prod hslot
  obtain ⟨_, rfl, htask⟩ := eq_encode_append_of_decode_prod howner
  obtain ⟨rest, rfl, -⟩ := eq_encode_append_of_decode_prod htask
  exact ⟨rest, by simp only [List.append_assoc]; rfl⟩

theorem Session.allAccept_filters {data : Bytes} {s : Session} (h : Account.ofData data = .ok s) :
    Filter.allAccept (Session.watch.filters s.status) data = true := by
  obtain ⟨rest, hdata⟩ := exists_layout h
  refine Account.allAccept_filters hdata ?_ (by decide)
  rw [List.length_append, List.length_append, Borsh.length_encode_slot, Borsh.length_encode_address,
    Borsh.length_encode_address]
  rfl

theorem Task.exists_layout {data : Bytes} {t : Task} (h : Account.ofData data = .ok t) :
    ∃ rest, data = (Account.discriminator Task).toList ++
      ((encode t.taskSlotId ++ encode t.sessionSlotId) ++ Enumeration.tag t.status :: rest) := by
  obtain ⟨body, rest, rfl, hbody⟩ := Account.exists_of_ofData h
  obtain ⟨p, hfields, rfl⟩ := exists_decode_of_ofFields Task.fields _ hbody
  obtain ⟨_, rfl, hslot⟩ := eq_encode_append_of_decode_prod hfields
  obtain ⟨_, rfl, hsession⟩ := eq_encode_append_of_decode_prod hslot
  obtain ⟨rest, rfl, -⟩ := eq_encode_append_of_decode_prod hsession
  exact ⟨rest, by simp only [List.append_assoc]; rfl⟩

theorem Task.allAccept_filters {data : Bytes} {t : Task} (h : Account.ofData data = .ok t)
    (hbound : t.sessionSlotId.isSome) :
    Filter.allAccept (Task.watch.filters t.status) data = true := by
  obtain ⟨rest, hdata⟩ := exists_layout h
  refine Account.allAccept_filters hdata ?_ (by decide)
  obtain ⟨slot, hslot⟩ := Option.isSome_iff_exists.mp hbound
  have hsession : (encode (some slot)).length = 9 :=
    congrArg (· + 1) (Borsh.length_encode_slot slot)
  rw [List.length_append, Borsh.length_encode_slot, hslot, hsession]
  rfl

namespace EntityKind

/-- The status of the record stands where the watch looks for it: always, but for tasks only if they
are bound to a session. -/
def Bound : (kind : EntityKind) → kind.Record → Prop
  | .task, t => t.sessionSlotId.isSome
  | _, _ => True

/-- An account with a record that a watch is after passes its filters. -/
theorem allAccept_filters (kind : EntityKind) {data : Bytes} {a : kind.Record}
    (hdecode : kind.watch.decode data = .ok a) (hbound : kind.Bound a) :
    Filter.allAccept (kind.watch.filters (kind.watch.statusOf a)) data = true := by
  cases kind with
  | node => exact NodeInfo.allAccept_filters hdecode
  | agent => exact Agent.allAccept_filters hdecode
  | session => exact Session.allAccept_filters hdecode
  | task => exact Task.allAccept_filters hdecode hbound

end EntityKind

end ComputeNet
