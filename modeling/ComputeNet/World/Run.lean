import ComputeNet.World.Calls

/-!
# Runs of worlds

What can happen in a world, and what becomes of the world. `report` tells which waits have ended
and which events have been delivered since the last report.
-/

namespace ComputeNet.World

/-- What can happen in a world. -/
inductive Happening where
  | account (account : RawAccount)
  /-- A transaction is recorded under some addresses. -/
  | transaction (addresses : List Address) (record : TransactionRecord)
  /-- From now on it takes time to fetch a transaction. -/
  | transactionSlows (signature : Signature) (ms : Nat)
  /-- From now on a transaction cannot be fetched. -/
  | transactionFails (signature : Signature)
  /-- From now on the signatures of an address cannot be listed. -/
  | signaturesFail (address : Address)
  /-- From now on several accounts cannot be read at once. -/
  | multipleAccountsFail
  /-- From now on it takes time to open a subscription of accounts. -/
  | subscriptionsSlow (ms : Nat)
  /-- The endpoint serves in another way. -/
  | faults (change : FaultChange)
  /-- The logs of a transaction are reported. -/
  | logs (notification : LogNotification)
  /-- The endpoint ends every stream. -/
  | streamsClose
  | fire (token : Token)
  | time (ms : Nat)
  | wait (id : String) (kind : EntityKind) (request : WaitRequest kind.Record kind.Status)
      (timeout : Option UInt64)
  /-- The client opens a feed, unless the endpoint refuses. -/
  | subscribe (id : String) (scope : Scope) (asks : Bool) (failsAt : Option Nat)
  | cancelFeed (id : String)
  | list (kind : EntityKind) (status : kind.Status)
  | history (scope : Scope) (options : HistoryOptions)

/-- The world right after something happened. -/
def after (w : World) : Happening → World
  | .account a =>
    { w.mapWaits (·.notice a.address a.data) with
      endpoint := { w.endpoint with ledger := w.endpoint.ledger.put a } }
  | .transaction addresses record =>
    { w with endpoint := { w.endpoint with ledger := w.endpoint.ledger.record addresses record } }
  | .transactionSlows signature ms =>
    { w with endpoint := { w.endpoint with
        transactionDelays := (signature, ms) :: w.endpoint.transactionDelays } }
  | .transactionFails signature =>
    { w with endpoint := { w.endpoint with
        failingTransactions := signature :: w.endpoint.failingTransactions } }
  | .signaturesFail address =>
    { w with endpoint := { w.endpoint with
        failingAddresses := address :: w.endpoint.failingAddresses } }
  | .multipleAccountsFail => { w with endpoint := { w.endpoint with multipleAccountsFail := true } }
  | .subscriptionsSlow ms => { w with endpoint := { w.endpoint with subscribeDelay := ms } }
  | .faults change =>
    { w with endpoint := { w.endpoint with faults := w.endpoint.faults.change change } }
  | .logs notification => w.mapFeeds (·.notice notification)
  | .streamsClose => (w.mapWaits (·.closeStream)).mapFeeds (·.closeStream)
  | .fire token => w.fire (.given token)
  | .time ms => w.runUntil (w.now + ms)
  | .wait id kind request timeout => w.startWait id kind request timeout
  | .subscribe id scope asks failsAt => (w.subscribe id scope asks failsAt).toOption.getD w
  | .cancelFeed id => { w with feeds := modifyFeed id Feed.cancel w.feeds }
  | .list kind status => (w.list kind status).2
  | .history scope options => (w.history scope options).2

/-- The world after something happened and all the background work that it caused. -/
def step (w : World) (h : Happening) : World := (w.after h).settle

/-- The world after some things happened, one after the other. -/
def run (w : World) (hs : List Happening) : World := hs.foldl step w

/-- Fires the token of the wait that goes by a name. -/
def cancelWait (w : World) (id : String) : World :=
  match (w.wait? id).bind (·.wait.request.token) with
  | some token => w.step (.fire token)
  | none => w

/-! ## Reports -/

/-- What has come to an end or been delivered since the last report. -/
structure News where
  waits : List (String × EntityWait)
  events : List (String × List Delivery)

/-- The news, and the world in which they have been reported. -/
def report (w : World) : News × World :=
  let ended := w.waits.filter fun e => e.wait.wait.isFinished && !e.reported
  let delivering := w.feeds.filter fun e => e.reported < e.feed.delivered.length
  ({ waits := ended.map fun e => (e.id, e.wait)
     events := delivering.map fun e => (e.id, e.feed.delivered.drop e.reported) },
    { w with
      waits := w.waits.map fun e => { e with reported := e.wait.wait.isFinished }
      feeds := w.feeds.map fun e => { e with reported := e.feed.delivered.length } })

end ComputeNet.World
