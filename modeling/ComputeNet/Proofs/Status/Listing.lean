import ComputeNet.Client
import ComputeNet.Proofs.Status.Filters
import ComputeNet.Proofs.Wait.Sightings
import ComputeNet.Proofs.World.Stored

/-!
# Listings by status

On the data of a record that has its status byte in place, the filters for a status and the status
in the record say the same (`EntityKind.allAccept_filters_iff`). So a listing by status has every
account whose record has the status and whose status byte is in place, and no account whose record
has another status (`EntityKind.exists_listByStatus`).
-/

namespace ComputeNet

/-- Filters of one place and length that accept the same data have the same bytes. -/
private theorem Filter.pattern_eq_of_accepts {f g : Filter} {data : Bytes}
    (hf : f.accepts data = true) (hg : g.accepts data = true) (hoffset : f.offset = g.offset)
    (hlength : f.pattern.length = g.pattern.length) : f.pattern = g.pattern := by
  obtain ⟨before, after, hdata, hbefore⟩ := exists_eq_append_of_accepts hf
  obtain ⟨before', after', hdata', hbefore'⟩ := exists_eq_append_of_accepts hg
  have hrest : f.pattern ++ after = g.pattern ++ after' := by
    apply List.append_inj_right (hdata.symm.trans hdata')
    rw [hbefore, hbefore', hoffset]
  exact List.append_inj_left hrest hlength

namespace Watch

variable {α σ : Type} [DecidableEq σ]

/-- Data passes the filters for one status only. -/
private theorem eq_of_allAccept_filters [Enumeration σ] [Enumeration.Complete σ] {w : Watch α σ}
    {status status' : σ} {data : Bytes} (h : Filter.allAccept (w.filters status) data = true)
    (h' : Filter.allAccept (w.filters status') data = true) : status = status' := by
  have haccepts (s : σ) (hs : Filter.allAccept (w.filters s) data = true) :
      Filter.accepts ⟨w.statusOffset, [Enumeration.tag s]⟩ data = true :=
    List.all_eq_true.mp hs _ (List.mem_cons_of_mem _ List.mem_cons_self)
  have htag := Filter.pattern_eq_of_accepts (haccepts status h) (haccepts status' h') rfl rfl
  exact Enumeration.tag_injective (List.cons.inj htag).1

/-- What is selected are the accounts whose records have the status. -/
theorem mem_select_iff {w : Watch α σ} {status : σ} {accounts : List RawAccount}
    {address : Address} {a : α} :
    (address, a) ∈ w.select status accounts ↔ ∃ account ∈ accounts, account.address = address ∧
      w.decode account.data = .ok a ∧ w.statusOf a = status := by
  rw [select, List.mem_filterMap]
  constructor
  · rintro ⟨account, haccount, h⟩
    obtain ⟨⟨key, b⟩, hobserve, hpair⟩ := Option.map_eq_some_iff.mp h
    cases hpair
    obtain ⟨hdecode, hstatus, -⟩ := observe_eq_some_iff.mp hobserve
    exact ⟨account, haccount, rfl, hdecode, hstatus⟩
  · rintro ⟨account, haccount, rfl, hdecode, hstatus⟩
    have hobserve : w.observe status account.address account.data = some (_, a) :=
      observe_eq_some_iff.mpr ⟨hdecode, hstatus, rfl⟩
    exact ⟨account, haccount, Option.map_eq_some_iff.mpr ⟨_, hobserve, rfl⟩⟩

/-- The records that are selected stand in the order of their accounts. -/
private theorem pairwise_select {w : Watch α σ} {status : σ} {accounts : List RawAccount}
    (h : RawAccount.Ascending accounts) :
    (w.select status accounts).Pairwise fun p q => p.1 < q.1 := by
  refine List.Pairwise.filterMap _ (fun account account' hlt p hp q hq => ?_) h
  obtain ⟨_, -, rfl⟩ := Option.map_eq_some_iff.mp hp
  obtain ⟨_, -, rfl⟩ := Option.map_eq_some_iff.mp hq
  exact hlt

end Watch

namespace EntityKind

instance : (kind : EntityKind) → Enumeration.Complete kind.Status
  | .node => inferInstanceAs (Enumeration.Complete NodeStatus)
  | .agent => inferInstanceAs (Enumeration.Complete AgentStatus)
  | .session => inferInstanceAs (Enumeration.Complete SessionStatus)
  | .task => inferInstanceAs (Enumeration.Complete TaskStatus)

/-- The filters for a status accept the data of a record that has its status byte in place exactly
if the record has the status. -/
theorem allAccept_filters_iff {kind : EntityKind} {status : kind.Status} {data : Bytes}
    {a : kind.Record} (hdecode : kind.watch.decode data = .ok a) (hbound : kind.Bound a) :
    Filter.allAccept (kind.watch.filters status) data = true ↔ kind.watch.statusOf a = status := by
  have hown := kind.allAccept_filters hdecode hbound
  constructor
  · exact Watch.eq_of_allAccept_filters hown
  · rintro rfl
    exact hown

theorem listByStatus_of_listing {e : Endpoint} {kind : EntityKind} {status : kind.Status}
    {accounts : List RawAccount} (h : e.listing (kind.watch.filters status) = .ok accounts) :
    Client.listByStatus e kind status = .ok (kind.watch.select status accounts) := by
  rw [Client.listByStatus, h]
  rfl

/-- A listing by status selects from what the endpoint lists. -/
theorem exists_listing_of_listByStatus {e : Endpoint} {kind : EntityKind} {status : kind.Status}
    {listed : List (Address × kind.Record)}
    (h : Client.listByStatus e kind status = .ok listed) :
    ∃ accounts, e.listing (kind.watch.filters status) = .ok accounts ∧
      listed = kind.watch.select status accounts := by
  cases hlisting : e.listing (kind.watch.filters status) with
  | error error =>
    rw [Client.listByStatus, hlisting] at h
    cases h
  | ok accounts =>
    rw [listByStatus_of_listing hlisting] at h
    cases h
    exact ⟨accounts, rfl, rfl⟩

/-- A listing by status that is served answers in the order of addresses, with accounts of the
ledger whose records have the status, and with every account of the ledger whose record has the
status and has its status byte in place. The filters and the status of such a record agree. -/
theorem exists_listByStatus (kind : EntityKind) (status : kind.Status) (e : Endpoint)
    (hserved : e.serve .getProgramAccounts = .ok ()) :
    (∀ (data : Bytes) (a : kind.Record), kind.watch.decode data = .ok a → kind.Bound a →
      (Filter.allAccept (kind.watch.filters status) data = true ↔
        kind.watch.statusOf a = status)) ∧
    ∃ listed, Client.listByStatus e kind status = .ok listed ∧
      listed.Pairwise (fun p q => p.1 < q.1) ∧
      (∀ address a, (address, a) ∈ listed → ∃ account ∈ e.ledger.accounts,
        account.address = address ∧ kind.watch.decode account.data = .ok a ∧
          kind.watch.statusOf a = status) ∧
      ∀ account ∈ e.ledger.accounts, ∀ a, kind.watch.decode account.data = .ok a →
        kind.Bound a → kind.watch.statusOf a = status → (account.address, a) ∈ listed := by
  have hlisting : e.listing (kind.watch.filters status) =
      .ok (e.ledger.select (e.effective (kind.watch.filters status))) := by
    rw [Endpoint.listing, hserved]
    rfl
  refine ⟨fun data a hdecode hbound => allAccept_filters_iff hdecode hbound, _,
    listByStatus_of_listing hlisting, ?_, ?_, ?_⟩
  · exact Watch.pairwise_select (Endpoint.ascending_of_listing hlisting)
  · intro address a h
    obtain ⟨account, haccount, hrecord⟩ := Watch.mem_select_iff.mp h
    exact ⟨account, ((Endpoint.mem_listing_iff hlisting).mp haccount).1, hrecord⟩
  · intro account haccount a hdecode hbound hstatus
    have hpasses := (allAccept_filters_iff hdecode hbound).mpr hstatus
    have hlisted := (Endpoint.mem_listing_iff hlisting).mpr
      ⟨haccount, Filter.allAccept_of_subset (e.effective_subset _) hpasses⟩
    exact Watch.mem_select_iff.mpr ⟨account, hlisted, rfl, hdecode, hstatus⟩

/-- An account that is larger than the record of its task. -/
def roomyAccount : RawAccount where
  address := .replicate 32 1
  data := Account.toData AccountType.validatedTask ++ [0, 0]
  lamports := 5

/-- An account that is cut short. -/
def shortAccount : RawAccount := ⟨.replicate 32 2, roomyAccount.data.take 20, 5⟩

theorem exists_listByStatus_roomyAccount :
    ∃ listed, Client.listByStatus { ledger := (Ledger.empty.put roomyAccount).put shortAccount }
        .task .awaitingValidation = .ok listed ∧
      (roomyAccount.address, AccountType.validatedTask) ∈ listed := by
  obtain ⟨-, listed, hlisted, -, -, hall⟩ := exists_listByStatus .task .awaitingValidation
    { ledger := (Ledger.empty.put roomyAccount).put shortAccount } rfl
  have hstands : roomyAccount ∈ ((Ledger.empty.put roomyAccount).put shortAccount).accounts :=
    Ledger.mem_insert_of_mem (Ledger.mem_insert_self _ []) (by decide)
  have hfits : Borsh.fits AccountType.validatedTask = true := by decide
  have hwatch : Task.watch.decode = Account.ofData := rfl
  have hdecode : Task.watch.decode roomyAccount.data = .ok AccountType.validatedTask := by
    rw [hwatch]
    exact Account.ofData_eq_ok_iff.mpr ⟨hfits, List.prefix_append _ _⟩
  exact ⟨listed, hlisted, hall roomyAccount hstands AccountType.validatedTask hdecode rfl rfl⟩

end EntityKind

end ComputeNet
