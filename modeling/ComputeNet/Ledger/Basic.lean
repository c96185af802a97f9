import ComputeNet.Error.Basic

/-!
# Ledgers

What an endpoint knows: the accounts of a program and the transactions of its past. `Filter` picks
accounts by a few bytes at a fixed place. The past is one list of transactions, newest first, each
with the addresses it is indexed under; what is known of one address is a view of that list.
-/

namespace ComputeNet

/-- A test of a few bytes of account data (`memcmp`). -/
structure Filter where
  /-- Where the bytes stand. -/
  offset : UInt64
  /-- What they must be. -/
  pattern : Bytes
deriving DecidableEq

namespace Filter

/-- The place after the bytes, or the last place there is if that one is beyond it. -/
def limit (f : Filter) : Nat := min (f.offset.toNat + f.pattern.length) (UInt64.size - 1)

/-- The data has the bytes in their place (`matches`). -/
def accepts (f : Filter) (data : Bytes) : Bool :=
  f.limit ≤ data.length && (data.take f.limit).drop f.offset.toNat = f.pattern

/-- The data passes every filter. -/
def allAccept (filters : List Filter) (data : Bytes) : Bool := filters.all (·.accepts data)

end Filter

/-- An account as the endpoint hands it out. -/
structure RawAccount where
  address : Address
  data : Bytes
  lamports : UInt64
deriving DecidableEq

/-- What is recorded of a transaction. -/
structure TransactionRecord where
  signature : Signature
  logs : Option (List String)
  /-- The time of its block, in seconds since 1970. -/
  blockTime : Option Int
  failure : Option String
deriving DecidableEq

/-- A signature in the list of an address, and whether the transaction failed. -/
structure SignatureEntry where
  signature : Signature
  failed : Bool
deriving DecidableEq

/-- A transaction and the addresses that it is indexed under. -/
structure HistoryEntry where
  addresses : List Address
  record : TransactionRecord

/-- The accounts ascend by address, so that there is one at most at each. -/
def RawAccount.Ascending (accounts : List RawAccount) : Prop :=
  accounts.Pairwise fun a b => a.address < b.address

/-- Accounts and past transactions. -/
structure Ledger where
  /-- The accounts, ascending by address. -/
  accounts : List RawAccount
  /-- The transactions, newest first. -/
  history : List HistoryEntry
  ascending : RawAccount.Ascending accounts

namespace Ledger

def empty : Ledger := ⟨[], [], .nil⟩

/-- Puts an account in its place among accounts that ascend by address, instead of any that is
there. -/
def insert (a : RawAccount) : List RawAccount → List RawAccount
  | [] => [a]
  | b :: bs =>
    if a.address = b.address then a :: bs
    else if a.address ≤ b.address then a :: b :: bs
    else b :: insert a bs

/-- What is in the list afterwards is the account itself or was there before. -/
theorem eq_or_mem_of_mem_insert {a b : RawAccount} {accounts : List RawAccount}
    (h : b ∈ insert a accounts) : b = a ∨ b ∈ accounts := by
  induction accounts with
  | nil => exact Or.inl (List.mem_singleton.mp h)
  | cons c accounts ih =>
    rw [insert] at h
    split at h
    · rcases List.mem_cons.mp h with rfl | h
      · exact Or.inl rfl
      · exact Or.inr (List.mem_cons_of_mem c h)
    · split at h
      · exact List.mem_cons.mp h
      · rcases List.mem_cons.mp h with rfl | h
        · exact Or.inr List.mem_cons_self
        · exact (ih h).imp_right (List.mem_cons_of_mem c)

theorem ascending_insert (a : RawAccount) {accounts : List RawAccount}
    (h : RawAccount.Ascending accounts) : RawAccount.Ascending (insert a accounts) := by
  induction accounts with
  | nil => exact List.pairwise_singleton _ a
  | cons b accounts ih =>
    obtain ⟨hb, hrest⟩ := List.pairwise_cons.mp h
    rw [insert]
    split
    next heq => exact List.pairwise_cons.mpr ⟨fun c hc => heq ▸ hb c hc, hrest⟩
    next hne =>
      split
      next hle =>
        have hlt := Std.lt_of_le_of_ne hle hne
        refine List.pairwise_cons.mpr ⟨fun c hc => ?_, h⟩
        rcases List.mem_cons.mp hc with rfl | hc
        · exact hlt
        · exact Std.lt_trans hlt (hb c hc)
      next hle =>
        refine List.pairwise_cons.mpr ⟨fun c hc => ?_, ih hrest⟩
        rcases eq_or_mem_of_mem_insert hc with rfl | hc
        · exact Std.not_le.mp hle
        · exact hb c hc

def put (l : Ledger) (a : RawAccount) : Ledger where
  accounts := insert a l.accounts
  history := l.history
  ascending := ascending_insert a l.ascending

def record (l : Ledger) (addresses : List Address) (r : TransactionRecord) : Ledger :=
  { l with history := ⟨addresses, r⟩ :: l.history }

def account? (l : Ledger) (address : Address) : Option RawAccount :=
  l.accounts.find? (·.address = address)

/-- The accounts that pass every filter, ascending by address. -/
def select (l : Ledger) (filters : List Filter) : List RawAccount :=
  l.accounts.filter fun a => Filter.allAccept filters a.data

/-- The transaction with a signature; the latest one recorded counts. -/
def transaction? (l : Ledger) (signature : Signature) : Option TransactionRecord :=
  (l.history.map (·.record)).find? (·.signature = signature)

/-- The signatures that are indexed under an address, newest first. A transaction counts as often
as the address is among its own. -/
def signatures (l : Ledger) (address : Address) : List SignatureEntry :=
  l.history.flatMap fun e =>
    List.replicate (e.addresses.count address) ⟨e.record.signature, e.record.failure.isSome⟩

/-- The entries after the first one with a signature; none if there is none. -/
def after (cursor : Signature) : List SignatureEntry → List SignatureEntry
  | [] => []
  | e :: es => if e.signature = cursor then es else after cursor es

/-- The signatures of an address that are older than a cursor. -/
def signaturesBefore (l : Ledger) (address : Address) : Option Signature → List SignatureEntry
  | none => l.signatures address
  | some cursor => after cursor (l.signatures address)

end Ledger

end ComputeNet
