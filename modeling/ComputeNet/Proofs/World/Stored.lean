import Mathlib.Data.List.Pairwise
import ComputeNet.Proofs.World.Play

/-!
# What the ledger holds

Nothing but storing an account changes the accounts of a world (`accounts_act`). So an account that
stands in the ledger was there at first or has been stored, and no other has been stored at its
address since (`mem_accounts_play_iff`). A listing answers with the accounts that stand in the
ledger and pass its filters (`Endpoint.mem_listing_iff`). Nothing but recording a transaction
changes its past (`history_play`).
-/

namespace ComputeNet

namespace Ledger

theorem mem_insert_self (a : RawAccount) (accounts : List RawAccount) : a ∈ insert a accounts := by
  induction accounts with
  | nil => exact List.mem_singleton_self a
  | cons b accounts ih =>
    rw [insert]
    split
    · exact List.mem_cons_self
    · split
      · exact List.mem_cons_self
      · exact List.mem_cons_of_mem b ih

/-- Storing an account takes no account away but one at its address. -/
theorem mem_insert_of_mem {a b : RawAccount} {accounts : List RawAccount} (h : b ∈ accounts)
    (hne : a.address ≠ b.address) : b ∈ insert a accounts := by
  induction accounts with
  | nil => cases h
  | cons c accounts ih =>
    rw [insert]
    by_cases hc : a.address = c.address
    · rw [if_pos hc]
      rcases List.mem_cons.mp h with rfl | h
      · exact absurd hc hne
      · exact List.mem_cons_of_mem a h
    · rw [if_neg hc]
      split
      · exact List.mem_cons_of_mem a h
      · rcases List.mem_cons.mp h with rfl | h
        · exact List.mem_cons_self
        · exact List.mem_cons_of_mem c (ih h)

theorem eq_of_mem_of_address_eq (l : Ledger) {a b : RawAccount} (ha : a ∈ l.accounts)
    (hb : b ∈ l.accounts) (h : a.address = b.address) : a = b := by
  have hdistinct : l.accounts.Pairwise fun a b => a.address = b.address → a = b :=
    l.ascending.imp fun hlt heq => absurd (heq ▸ hlt) Std.lt_irrefl
  have : Std.Symm fun a b : RawAccount => a.address = b.address → a = b :=
    ⟨fun _ _ hab heq => (hab heq.symm).symm⟩
  exact hdistinct.forall_of_forall (fun _ _ _ => rfl) ha hb h

/-- Reading an address gives the account that stands there. -/
theorem account?_eq_some_iff (l : Ledger) {address : Address} {a : RawAccount} :
    l.account? address = some a ↔ a ∈ l.accounts ∧ a.address = address := by
  rw [account?]
  constructor
  · intro h
    exact ⟨List.mem_of_find?_eq_some h, by simpa using List.find?_some h⟩
  · rintro ⟨ha, rfl⟩
    cases hfind : l.accounts.find? (·.address = a.address) with
    | none =>
      have hnone := List.find?_eq_none.mp hfind a ha
      simp at hnone
    | some b =>
      have hb : b.address = a.address := by simpa using List.find?_some hfind
      rw [l.eq_of_mem_of_address_eq (List.mem_of_find?_eq_some hfind) ha hb]

/-- What stands in the ledger after an account has been stored. -/
theorem mem_put_iff (l : Ledger) {a b : RawAccount} :
    b ∈ (l.put a).accounts ↔ b = a ∨ b ∈ l.accounts ∧ a.address ≠ b.address := by
  constructor
  · intro h
    by_cases hba : b = a
    · exact Or.inl hba
    · right
      refine ⟨(eq_or_mem_of_mem_insert h).resolve_left hba, fun haddress => hba ?_⟩
      exact eq_of_mem_of_address_eq (l.put a) h (mem_insert_self a l.accounts) haddress.symm
  · rintro (rfl | ⟨h, hne⟩)
    · exact mem_insert_self b l.accounts
    · exact mem_insert_of_mem h hne

end Ledger

theorem Filter.allAccept_of_subset {filters filters' : List Filter} (h : filters' ⊆ filters)
    {data : Bytes} (hdata : allAccept filters data = true) : allAccept filters' data = true := by
  rw [allAccept, List.all_eq_true] at hdata ⊢
  exact fun f hf => hdata f (h hf)

namespace Endpoint

/-- A call goes by no other filters than it is given. -/
theorem effective_subset (e : Endpoint) (filters : List Filter) :
    e.effective filters ⊆ filters := by
  rw [effective]
  split
  · exact List.nil_subset filters
  · exact List.Subset.refl filters

/-- What a listing answers are the accounts that pass the filters it goes by. -/
theorem eq_select_of_listing {e : Endpoint} {filters : List Filter} {accounts : List RawAccount}
    (h : e.listing filters = .ok accounts) : accounts = e.ledger.select (e.effective filters) := by
  rw [listing] at h
  cases hserve : e.serve .getProgramAccounts with
  | error error =>
    rw [hserve] at h
    cases h
  | ok =>
    rw [hserve] at h
    cases h
    rfl

theorem ascending_of_listing {e : Endpoint} {filters : List Filter} {accounts : List RawAccount}
    (h : e.listing filters = .ok accounts) : RawAccount.Ascending accounts := by
  rw [eq_select_of_listing h]
  exact e.ledger.ascending.sublist List.filter_sublist

theorem mem_listing_iff {e : Endpoint} {filters : List Filter} {accounts : List RawAccount}
    (h : e.listing filters = .ok accounts) {a : RawAccount} :
    a ∈ accounts ↔ a ∈ e.ledger.accounts ∧ Filter.allAccept (e.effective filters) a.data := by
  rw [eq_select_of_listing h, Ledger.select, List.mem_filter]

/-- The signatures of an address come whole if there are no more of them than asked for. -/
theorem signatures_eq_some {e : Endpoint} {address : Address} {limit : Nat}
    {before : Option Signature} (hlisted : address ∉ e.failingAddresses)
    (hle : (e.ledger.signaturesBefore address before).length ≤ limit) :
    e.signatures address limit before = some (e.ledger.signaturesBefore address before) := by
  have hnot : e.failingAddresses.any (· = address) = false := by
    rw [List.any_eq_false]
    intro failing hfailing heq
    exact hlisted (of_decide_eq_true heq ▸ hfailing)
  simp only [signatures, hnot, List.take_of_length_le hle, ite_self, Bool.false_eq_true, if_false]

end Endpoint

/-- The transaction that a move records. -/
def Move.recorded? : Move → Option HistoryEntry
  | .happen (.transaction addresses record) => some ⟨addresses, record⟩
  | _ => none

/-- None of the moves stores an account at the address. -/
def Move.Spares (moves : List Move) (address : Address) : Prop :=
  ∀ a, .happen (.account a) ∈ moves → a.address ≠ address

namespace World

abbrev accounts (w : World) : List RawAccount := w.endpoint.ledger.accounts

@[simp] theorem accounts_settle (w : World) : w.settle.accounts = w.accounts := by
  rw [accounts, settle_endpoint]

theorem accounts_act (w : World) (m : Move) :
    (w.act m).accounts =
      match m with
      | .happen (.account a) => (w.endpoint.ledger.put a).accounts
      | _ => w.accounts := by
  rw [accounts, endpoint_act]
  cases m with
  | settle => rfl
  | happen h => cases h <;> rfl

private theorem mem_accounts_act_iff (w : World) {m : Move} {a : RawAccount} :
    a ∈ (w.act m).accounts ↔
      m = .happen (.account a) ∨ a ∈ w.accounts ∧ Move.Spares [m] a.address := by
  have hspares : ∀ b, Move.Spares [.happen (.account b)] a.address ↔ b.address ≠ a.address := by
    simp [Move.Spares]
  rw [accounts_act]
  cases m with
  | settle => simp [Move.Spares]
  | happen h =>
    cases h with
    | account b => simp [Ledger.mem_put_iff, hspares, eq_comm]
    | _ => simp [Move.Spares]

/-- An account that stands in the ledger was there at first or has been stored, and no other has
been stored at its address since. -/
theorem mem_accounts_play_iff (w : World) {moves : List Move} {a : RawAccount} :
    a ∈ (w.play moves).accounts ↔ a ∈ w.accounts ∧ Move.Spares moves a.address ∨
      ∃ before after, moves = before ++ .happen (.account a) :: after ∧
        Move.Spares after a.address := by
  induction moves generalizing w with
  | nil => simp [Move.Spares]
  | cons m moves ih =>
    have hspares : Move.Spares (m :: moves) a.address ↔
        Move.Spares [m] a.address ∧ Move.Spares moves a.address := by
      simp only [Move.Spares, List.mem_cons, List.not_mem_nil, or_false]
      exact ⟨fun h => ⟨fun b hb => h b (Or.inl hb), fun b hb => h b (Or.inr hb)⟩,
        fun h b hb => hb.elim (h.1 b) (h.2 b)⟩
    rw [play_cons, ih (w.act m), mem_accounts_act_iff, hspares]
    constructor
    · rintro (⟨rfl | ⟨ha, hm⟩, hmoves⟩ | ⟨before, after, rfl, hafter⟩)
      · exact Or.inr ⟨[], moves, rfl, hmoves⟩
      · exact Or.inl ⟨ha, hm, hmoves⟩
      · exact Or.inr ⟨m :: before, after, rfl, hafter⟩
    · rintro (⟨ha, hm, hmoves⟩ | ⟨before, after, heq, hafter⟩)
      · exact Or.inl ⟨Or.inr ⟨ha, hm⟩, hmoves⟩
      · cases before with
        | nil =>
          obtain ⟨rfl, rfl⟩ := List.cons.inj heq
          exact Or.inl ⟨Or.inl rfl, hafter⟩
        | cons m' before =>
          obtain ⟨rfl, rfl⟩ := List.cons.inj heq
          exact Or.inr ⟨before, after, rfl, hafter⟩

/-! ## The past -/

/-- A transaction that is recorded becomes the newest one. -/
theorem history_act (w : World) (m : Move) :
    (w.act m).endpoint.ledger.history = m.recorded?.toList ++ w.endpoint.ledger.history := by
  rw [endpoint_act]
  cases m with
  | settle => rfl
  | happen h => cases h <;> rfl

theorem history_play (w : World) (moves : List Move) :
    (w.play moves).endpoint.ledger.history =
      (moves.filterMap Move.recorded?).reverse ++ w.endpoint.ledger.history := by
  induction moves generalizing w with
  | nil => rfl
  | cons m moves ih =>
    rw [play_cons, ih, history_act]
    cases hrecorded : m.recorded? with
    | none => rw [List.filterMap_cons_none hrecorded, Option.toList_none, List.nil_append]
    | some e =>
      rw [List.filterMap_cons_some hrecorded, List.reverse_cons, List.append_assoc]
      rfl

end World

end ComputeNet
