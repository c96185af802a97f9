import ComputeNet.World.Basic

/-!
# Calls of the client

What the client does in the foreground of a world: it starts waits (`wait_for_node_status` and its
like), opens feeds (`subscribe_session_events`, `subscribe_program_events`), lists accounts, sends
transactions and looks up histories. Listings and histories let time pass.
-/

namespace ComputeNet.World

/-- A token that no wait has been given. -/
def freshToken (w : World) : Token := w.waits.length

/-- Starts a wait, which goes on in the background. -/
def startWait (w : World) (id : String) (kind : EntityKind)
    (request : WaitRequest kind.Record kind.Status) (timeout : Option UInt64) : World :=
  { w with waits := ⟨id, ⟨kind, w.client.wait w.now request timeout⟩, false⟩ :: w.waits }.settle

/-- Opens a feed. A feed that went by the same name is cancelled. -/
def subscribe (w : World) (id : String) (scope : Scope) (asks : Bool) (failsAt : Option Nat) :
    Except ClientError World :=
  if !w.client.canSubscribe then .error .missingSubscriptionTransport
  else do
    w.endpoint.serve .logsSubscribe
    let entry : FeedEntry := { id, feed := { scope, asks, failsAt } }
    return { w with feeds := entry :: modifyFeed id Feed.cancel w.feeds }.settle

/-- Lists the accounts of a kind that have a status, which takes the time of a listing. -/
def list (w : World) (kind : EntityKind) (status : kind.Status) :
    Except ClientError (List (Address × kind.Record)) × World :=
  let w := w.runUntil (w.now + w.endpoint.listingDelay)
  (Client.listByStatus w.endpoint kind status, w)

/-- Sends instructions. What that has changed at the endpoint stays, even where it fails. -/
def send (w : World) (instructions : List Instruction) (payer : KeyPair)
    (signers : List KeyPair) : Except (Failure ClientError) Signature × World :=
  let (result, endpoint) := w.endpoint.run (Client.send instructions payer signers)
  (result, { w with endpoint })

/-- What the calendar clock shows, in nanoseconds since 1970: a moment that stands for the
present. -/
def present : Int := 2000000000 * 1000000000

/-- What a history sees of the endpoint. -/
def source (e : Endpoint) : TransactionSource where
  signatures := e.signatures
  transaction? := e.transaction?
  delay := e.transactionDelay
  clock _ := present

/-- Looks up the past events of a scope, which takes the time of the fetches. -/
def history (w : World) (scope : Scope) (options : HistoryOptions) : List PastEvent × World :=
  let h := w.client.history (source w.endpoint) scope options
  let endpoint := { w.endpoint with fetches := w.endpoint.fetches + h.fetched.length }
  (h.events, { w with endpoint }.runUntil (w.now + h.duration))

end ComputeNet.World
