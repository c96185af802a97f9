import ComputeNet.Ledger.Basic
import ComputeNet.Transaction.Basic

/-!
# Endpoints

A simulated endpoint that serves a ledger. Its calls can be made to fail, to be slow and to leave
things out. Calls that take time are split: how long one takes is read off when it begins, and its
answer when it ends.
-/

namespace ComputeNet

/-- How an endpoint departs from plain service. -/
structure Faults where
  /-- The calls that are not served. -/
  failing : List Call := []
  /-- The transactions that are not found. -/
  missing : List Signature := []
  /-- Lists of signatures come whole, whatever the limit. -/
  ignoreLimit : Bool := false
  /-- Listings and subscriptions of accounts leave nothing out. -/
  ignoreFilters : Bool := false
  /-- How many accounts an answer about several holds at most. -/
  short : Option Nat := none
  /-- How long a listing takes, in milliseconds. -/
  listingDelay : Option Nat := none

/-- A change of some of the faults. -/
structure FaultChange where
  failing : Option (List Call) := none
  missing : Option (List Signature) := none
  ignoreLimit : Option Bool := none
  ignoreFilters : Option Bool := none
  short : Option Nat := none
  listingDelay : Option Nat := none

/-- The faults after a change; what the change does not give stays. -/
def Faults.change (f : Faults) (c : FaultChange) : Faults where
  failing := c.failing.getD f.failing
  missing := c.missing.getD f.missing
  ignoreLimit := c.ignoreLimit.getD f.ignoreLimit
  ignoreFilters := c.ignoreFilters.getD f.ignoreFilters
  short := c.short.or f.short
  listingDelay := c.listingDelay.or f.listingDelay

/-- A ledger and the way it is served. -/
structure Endpoint where
  ledger : Ledger := .empty
  faults : Faults := {}
  /-- How long it takes to fetch a transaction, in milliseconds, where it takes time. The latest
  entry for a signature counts. -/
  transactionDelays : List (Signature × Nat) := []
  /-- The addresses whose signatures cannot be listed. -/
  failingAddresses : List Address := []
  /-- The transactions that cannot be fetched. -/
  failingTransactions : List Signature := []
  multipleAccountsFail : Bool := false
  /-- How long it takes to open a subscription of accounts, in milliseconds. -/
  subscribeDelay : Nat := 0
  fetches : Nat := 0
  /-- The transactions that have been sent, oldest first. -/
  sent : List Transaction := []

namespace Endpoint

/-- A call goes through unless it is not served. -/
def serve (e : Endpoint) (call : Call) : Except ClientError Unit :=
  if call ∈ e.faults.failing then .error (.transport (.unavailable call)) else .ok ()

def account (e : Endpoint) (address : Address) : Except ClientError (Option RawAccount) := do
  e.serve .getAccount
  return e.ledger.account? address

/-- The filters that a call with the given ones goes by. -/
def effective (e : Endpoint) (filters : List Filter) : List Filter :=
  if e.faults.ignoreFilters then [] else filters

/-- How long a listing takes that begins now. -/
def listingDelay (e : Endpoint) : Nat := e.faults.listingDelay.getD 0

/-- The answer of a listing that ends now. -/
def listing (e : Endpoint) (filters : List Filter) : Except ClientError (List RawAccount) := do
  e.serve .getProgramAccounts
  return e.ledger.select (e.effective filters)

/-- The accounts at some addresses, in the order asked for. -/
def accounts (e : Endpoint) (addresses : List Address) :
    Except ClientError (List (Option RawAccount)) :=
  if e.multipleAccountsFail then .error (.transport (.unavailable .getMultipleAccounts))
  else
    let found := addresses.map e.ledger.account?
    .ok (match e.faults.short with
      | none => found
      | some n => found.take n)

/-- The block hash that every transaction is tied to. -/
def fixedBlockhash : Digest := .replicate 32 7

/-- The block hash that new transactions are tied to. -/
def blockhash (e : Endpoint) : Except ClientError Digest := do
  e.serve .latestBlockhash
  return fixedBlockhash

/-- A call that may change the endpoint. What it has changed stays, even where the call fails. -/
abbrev Calling := ExceptT (Failure ClientError) (StateM Endpoint)

/-- What comes of a call: its result, and the endpoint afterwards. -/
def run {α : Type} (e : Endpoint) (call : Calling α) : Except (Failure ClientError) α × Endpoint :=
  ExceptT.run call e

/-- A call that leaves the endpoint as it is. -/
def asks {α : Type} (call : Endpoint → Except ClientError α) : Calling α := do
  match call (← get) with
  | .error cause => throw (.error cause)
  | .ok a => return a

theorem run_bind {α β : Type} (e : Endpoint) (call : Calling α) (next : α → Calling β) :
    e.run (call >>= next) =
      match e.run call with
      | (.error failure, e') => (.error failure, e')
      | (.ok a, e') => e'.run (next a) := by
  have hbind : e.run (call >>= next) =
      match e.run call with
      | (result, e') => (ExceptT.bindCont next result : StateM Endpoint _) e' := rfl
  rw [hbind]
  obtain ⟨_ | _, e'⟩ := e.run call <;> rfl

theorem run_asks {α : Type} (e : Endpoint) (call : Endpoint → Except ClientError α) :
    e.run (asks call) =
      match call e with
      | .error cause => (.error (.error cause), e)
      | .ok a => (.ok a, e) := by
  have hasks : e.run (asks call) =
      e.run (match call e with
        | .error cause => throw (.error cause)
        | .ok a => return a) := rfl
  rw [hasks]
  cases call e <;> rfl

/-- Sends a transaction, which goes by its first signature from then on. -/
def send (t : Transaction) : Calling Signature := do
  asks (·.serve .sendTransaction)
  match t.signatures.head? with
  | none => throw (.error (.transport (.reported "unsigned transaction")))
  | some signature =>
    modify fun e => { e with sent := e.sent ++ [t] }
    return signature

theorem run_send (e : Endpoint) (t : Transaction) :
    e.run (send t) =
      match e.serve .sendTransaction, t.signatures.head? with
      | .error cause, _ => (.error (.error cause), e)
      | .ok (), none => (.error (.error (.transport (.reported "unsigned transaction"))), e)
      | .ok (), some signature => (.ok signature, { e with sent := e.sent ++ [t] }) := by
  rw [send, run_bind, run_asks]
  cases e.serve .sendTransaction with
  | error cause => rfl
  | ok =>
    cases t.signatures.head? <;> rfl

/-- The signatures of an address before a cursor, newest first, or `none` if they cannot be
listed. -/
def signatures (e : Endpoint) (address : Address) (limit : Nat) (before : Option Signature) :
    Option (List SignatureEntry) :=
  if e.failingAddresses.any (· = address) then none
  else
    let entries := e.ledger.signaturesBefore address before
    some (if e.faults.ignoreLimit then entries else entries.take limit)

/-- How long it takes to fetch a transaction. -/
def transactionDelay (e : Endpoint) (signature : Signature) : Nat :=
  (e.transactionDelays.lookup signature).getD 0

/-- The record of a transaction, if it can be fetched and is found. -/
def transaction? (e : Endpoint) (signature : Signature) : Option TransactionRecord :=
  if signature ∈ e.failingTransactions ∨ signature ∈ e.faults.missing then none
  else e.ledger.transaction? signature

end Endpoint

end ComputeNet
