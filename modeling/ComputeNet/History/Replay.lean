import ComputeNet.Address.Derived
import ComputeNet.Event.Log
import ComputeNet.History.Batch
import ComputeNet.History.Stamp
import ComputeNet.Ledger.Basic
import ComputeNet.Settings.Basic

/-!
# Histories

The past events of a scope, newest first (`replay_events`). A history looks up the signatures of an
address (`get_signatures_for_address`) and fetches their transactions (`get_transaction`) batch by
batch until it has gathered enough events. What cannot be fetched costs only its own events.
-/

namespace ComputeNet

/-- An event of the past. -/
structure PastEvent extends LoggedEvent where
  time : Stamp
deriving DecidableEq

/-- What a history asks of an endpoint. -/
structure TransactionSource where
  /-- The signatures of an address, newest first: at most so many, and only older ones than the
  cursor. `none` if they cannot be listed. -/
  signatures : Address → Nat → Option Signature → Option (List SignatureEntry)
  /-- The record of a transaction, if it can be fetched. -/
  transaction? : Signature → Option TransactionRecord
  /-- How long it takes to fetch a transaction. -/
  delay : Signature → Nat
  /-- What the clock shows, in nanoseconds since 1970, when the transaction has been fetched. -/
  clock : Signature → Int

/-- What is asked of a history. -/
structure HistoryOptions where
  /-- Only events of this task, and those that name no task. -/
  task : Option UInt64 := none
  /-- How many events at most; if not given, the settings say. -/
  limit : Option UInt64 := none
  /-- Only transactions older than this one. -/
  before : Option Signature := none

/-- A history, and what it took. -/
structure History where
  events : List PastEvent
  /-- The addresses whose signatures were looked up, in order. -/
  lookups : List Address
  /-- The transactions that were fetched, in order. -/
  fetched : List Signature
  /-- How long it took, in milliseconds. -/
  duration : Nat

namespace History

def empty : History := ⟨[], [], [], 0⟩

/-- The address whose signatures a scope is about, and the one to turn to if it has none
(`replay_addresses`). -/
def addresses (program network : Address) : Scope → Address × Option Address
  | .session slot =>
    let session := (Derivation.session network slot).address program
    (session, some ((Derivation.sessionVault session).address program))
  | .program => (program, none)

/-- The signatures of the first address or, where there are none or they cannot be listed, of the
second (`signatures_for`); and the addresses that were looked up. -/
def lookUp (source : TransactionSource) (limit : Nat) (before : Option Signature) :
    Address × Option Address → List SignatureEntry × List Address
  | (primary, fallback) =>
    match source.signatures primary limit before, fallback with
    | some (e :: es), _ => (e :: es, [primary])
    | _, none => ([], [primary])
    | _, some fallback =>
      ((source.signatures fallback limit before).getD [], [primary, fallback])

/-- The events of a transaction in a scope, in the order of its logs (`transaction_events`). A
failed transaction, and one without logs, yields none. -/
def transactionEvents (source : TransactionSource) (scope : Scope) (task : Option UInt64)
    (signature : Signature) : List PastEvent :=
  match source.transaction? signature with
  | none => []
  | some record =>
    match record.failure, record.logs with
    | none, some logs =>
      let time := Stamp.ofBlockTime (source.clock signature) record.blockTime
      ((Log.events scope.sessionFilter signature logs).filter (·.event.concernsTask task)).map
        fun e => { e with time }
    | _, _ => []

/-- The signatures of a batch whose transactions are fetched: those that did not fail. -/
def wanted (batch : List SignatureEntry) : List Signature :=
  (batch.filter (!·.failed)).map (·.signature)

/-- Fetches batch after batch until so many events are there. `gathered` is the history so far. -/
def gather (source : TransactionSource) (scope : Scope) (task : Option UInt64) (limit : Nat)
    (gathered : History) : List (List SignatureEntry) → History
  | [] => gathered
  | batch :: batches =>
    let jobs := (wanted batch).map fun s => (source.delay s, transactionEvents source scope task s)
    let (results, duration) := Batch.run jobs
    let gathered : History := { gathered with
      events := gathered.events ++ results.flatten
      fetched := gathered.fetched ++ wanted batch
      duration := gathered.duration + duration }
    if limit ≤ gathered.events.length then gathered
    else gather source scope task limit gathered batches

/-- The newest events first; events of one time stay in order. -/
def newestFirst (events : List PastEvent) : List PastEvent :=
  events.mergeSort fun a b => b.time.nanoseconds ≤ a.time.nanoseconds

/-- The limit of a scope where none is asked for. -/
def usualLimit (monitor : MonitorSettings) : Scope → UInt64
  | .session _ => monitor.sessionHistoryLimit
  | .program => monitor.programHistoryLimit

/-- The past events of a scope. -/
def replay (source : TransactionSource) (monitor : MonitorSettings) (program network : Address)
    (scope : Scope) (options : HistoryOptions) : History :=
  let limit := (options.limit.getD (usualLimit monitor scope)).toNat
  if limit = 0 then empty
  else
    let most := monitor.maxSignatures.toNat
    let (entries, lookups) := lookUp source most options.before (addresses program network scope)
    let batches := Batch.split monitor.fetchBatchSize.toNat (entries.take most)
    let gathered := gather source scope options.task limit { empty with lookups } batches
    { gathered with events := (newestFirst gathered.events).take limit }

end History

end ComputeNet
