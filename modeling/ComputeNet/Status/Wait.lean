import ComputeNet.Ledger.Endpoint
import ComputeNet.Status.Watch

/-!
# Waiting for a status

A wait (`wait_for_status`) is over once one of its targets, or all of them, were seen with the
wanted status. It lists the accounts first (`get_program_accounts`), and only if that is not enough
opens a stream of changes (`program_subscribe`). `poll` takes a wait as far as it gets without time
passing: it gives way to a fired token first, works through its phases next, and looks at its
deadline last. A wait that is over has let go of its stream.

A wait does not work under the token that it was given but under one of its own, a child of that
one (`child_token`): it is called off when either is fired. Its own token is fired when it is over
(`drop_guard`).
-/

namespace ComputeNet

/-- Which targets must have the status. -/
inductive WaitMode where
  | first
  | all
deriving DecidableEq, Repr

/-- A means to call waits off, known by a number. -/
abbrev Token := Nat

/-- What is waited for. -/
structure WaitRequest (α σ : Type) where
  watch : Watch α σ
  targets : List EntityKey
  status : σ
  mode : WaitMode
  token : Option Token

/-- The records seen so far, one for each key. -/
abbrev Found (α : Type) := List (EntityKey × α)

namespace Found

variable {α : Type}

/-- The latest record of a key takes the place of an earlier one. -/
def put (found : Found α) (key : EntityKey) (a : α) : Found α :=
  (key, a) :: found.filter (·.1 ≠ key)

/-- The records of the targets, in the order of the targets, each once. -/
def inOrder (found : Found α) : List EntityKey → List α
  | [] => []
  | key :: keys =>
    match found.lookup key with
    | some a => a :: inOrder (found.filter (·.1 ≠ key)) keys
    | none => inOrder found keys

end Found

/-- A stream of account changes. -/
structure AccountStream where
  filters : List Filter
  /-- The changes that have not been looked at, oldest first. -/
  pending : List (Address × Bytes)
  /-- The endpoint has ended the stream. -/
  closed : Bool

namespace AccountStream

/-- A change of an account reaches an open stream if it passes the filters. -/
def push (s : AccountStream) (address : Address) (data : Bytes) : AccountStream :=
  if !s.closed && Filter.allAccept s.filters data then
    { s with pending := s.pending ++ [(address, data)] }
  else s

end AccountStream

/-- How far a wait has got. -/
inductive WaitPhase (α : Type) where
  /-- Nothing has been done. -/
  | starting
  /-- The listing ends at a time. -/
  | listing (endsAt : Nat)
  /-- The stream opens at a time. -/
  | subscribing (opensAt : Nat) (filters : List Filter) (found : Found α)
  /-- Changes are looked at as they come. -/
  | listening (found : Found α)
  /-- The wait ended at a time. -/
  | finished (outcome : Except ClientError (Found α)) (time : Nat)

structure Wait (α σ : Type) where
  request : WaitRequest α σ
  /-- When the wait ends at the latest. -/
  deadline : Option Nat
  phase : WaitPhase α := .starting
  stream : Option AccountStream := none
  /-- How many streams the wait has opened. -/
  opened : Nat := 0
  /-- The token of its own has been fired. -/
  ownFired : Bool := false

/-- What surrounds a wait at a moment. -/
structure Surroundings where
  endpoint : Endpoint
  /-- The client has means to follow changes. -/
  canSubscribe : Bool
  /-- The tokens that have been fired. -/
  fired : List Token
  /-- The time, in milliseconds. -/
  now : Nat

namespace WaitRequest

variable {α σ : Type} [Enumeration σ] [DecidableEq σ]

def filters (r : WaitRequest α σ) : List Filter := r.watch.filters r.status

/-- Looks at an account: a target with the wanted status is kept. -/
def look (r : WaitRequest α σ) (found : Found α) (address : Address) (data : Bytes) : Found α :=
  match r.watch.observe r.status address data with
  | some (key, a) => if key ∈ r.targets then found.put key a else found
  | none => found

/-- What has been found is enough (`is_complete`). -/
def isComplete (r : WaitRequest α σ) (found : Found α) : Bool :=
  match r.mode with
  | .first => !found.isEmpty
  | .all => r.targets.all fun key => (found.lookup key).isSome

/-- How many targets must have the status. -/
def expected (r : WaitRequest α σ) : Nat :=
  match r.mode with
  | .first => 1
  | .all => r.targets.eraseDups.length

/-- What is found in a listing. -/
def lookAll (r : WaitRequest α σ) (accounts : List RawAccount) : Found α :=
  accounts.foldl (fun found a => r.look found a.address a.data) []

omit [Enumeration σ] [DecidableEq σ] in
/-- The token of the request is among those that have been fired. -/
def isCalledOff (r : WaitRequest α σ) (fired : List Token) : Bool := r.token.any (· ∈ fired)

end WaitRequest

namespace Wait

variable {α σ : Type} [Enumeration σ] [DecidableEq σ]

def isFinished (w : Wait α σ) : Bool :=
  match w.phase with
  | .finished .. => true
  | _ => false

/-- The outcome of a wait that is over. -/
def outcome? (w : Wait α σ) : Option (Except ClientError (Found α)) :=
  match w.phase with
  | .finished outcome _ => some outcome
  | _ => none

/-- The records that a wait which is over has found, in the order of its targets. -/
def records? (w : Wait α σ) : Option (Except ClientError (List α)) :=
  w.outcome?.map fun outcome => outcome.map fun found => found.inOrder w.request.targets

/-- The wait ends now. -/
def finish (s : Surroundings) (outcome : Except ClientError (Found α)) (w : Wait α σ) :
    Wait α σ :=
  { w with phase := .finished outcome s.now, stream := none }

/-- A wait that starts needs means to follow changes, and targets; then the listing begins. -/
def begin (s : Surroundings) (w : Wait α σ) : Wait α σ :=
  match w.phase with
  | .starting =>
    if !s.canSubscribe then w.finish s (.error .missingSubscriptionTransport)
    else if w.request.targets.isEmpty then w.finish s (.error .emptyTargets)
    else { w with phase := .listing (s.now + s.endpoint.listingDelay) }
  | _ => w

/-- Its own token was fired, or the one that it is a child of. -/
def isCalledOff (w : Wait α σ) (fired : List Token) : Bool :=
  w.ownFired || w.request.isCalledOff fired

/-- The token of its own is fired. -/
def fireOwn (w : Wait α σ) : Wait α σ := { w with ownFired := true }

/-- A wait whose token has been fired ends. -/
def heed (s : Surroundings) (w : Wait α σ) : Wait α σ :=
  if !w.isFinished && w.isCalledOff s.fired then w.finish s (.error .cancelled) else w

/-- At the end of the listing the wait is over, or it begins to open a stream. -/
def list (s : Surroundings) (w : Wait α σ) : Wait α σ :=
  match w.phase with
  | .listing endsAt =>
    if s.now < endsAt then w
    else match s.endpoint.listing w.request.filters with
      | .error e => w.finish s (.error e)
      | .ok accounts =>
        let found := w.request.lookAll accounts
        if w.request.isComplete found then w.finish s (.ok found)
        else match s.endpoint.serve .programSubscribe with
          | .error e => w.finish s (.error e)
          | .ok () =>
            let opensAt := s.now + s.endpoint.subscribeDelay
            let filters := s.endpoint.effective w.request.filters
            { w with phase := .subscribing opensAt filters found }
  | _ => w

/-- The stream opens. -/
def subscribe (s : Surroundings) (w : Wait α σ) : Wait α σ :=
  match w.phase with
  | .subscribing opensAt filters found =>
    if s.now < opensAt then w
    else { w with
      phase := .listening found
      stream := some { filters, pending := [], closed := false }
      opened := w.opened + 1 }
  | _ => w

/-- Looks at changes one after the other until what has been found is enough. The second part says
whether it is. -/
def consume (r : WaitRequest α σ) (found : Found α) : List (Address × Bytes) → Found α × Bool
  | [] => (found, false)
  | (address, data) :: pending =>
    match r.watch.observe r.status address data with
    | some (key, a) =>
      if key ∈ r.targets then
        let found := found.put key a
        if r.isComplete found then (found, true) else consume r found pending
      else consume r found pending
    | none => consume r found pending

/-- Looks at the changes that have come. A stream that has ended and holds nothing more ends the
wait. -/
def listen (s : Surroundings) (w : Wait α σ) : Wait α σ :=
  match w.phase, w.stream with
  | .listening found, some stream =>
    let (found, complete) := consume w.request found stream.pending
    if complete then w.finish s (.ok found)
    else if stream.closed then
      w.finish s (.error (.streamEnded (Enumeration.name w.request.status)))
    else { w with phase := .listening found, stream := some { stream with pending := [] } }
  | _, _ => w

/-- A wait whose deadline has come ends. -/
def expire (s : Surroundings) (w : Wait α σ) : Wait α σ :=
  if !w.isFinished && w.deadline.any (· ≤ s.now) then
    w.finish s (.error (.timeout w.request.expected (Enumeration.name w.request.status)))
  else w

/-- Takes the wait as far as it gets now. -/
def poll (s : Surroundings) (w : Wait α σ) : Wait α σ :=
  ((((((w.begin s).heed s).list s).subscribe s).listen s).expire s)

/-- The times at which the wait may get further by itself. -/
def timers (w : Wait α σ) : List Nat :=
  match w.phase with
  | .starting => w.deadline.toList
  | .listing endsAt => endsAt :: w.deadline.toList
  | .subscribing opensAt _ _ => opensAt :: w.deadline.toList
  | .listening _ => w.deadline.toList
  | .finished .. => []

/-- A change of an account reaches the stream of the wait. -/
def notice (address : Address) (data : Bytes) (w : Wait α σ) : Wait α σ :=
  { w with stream := w.stream.map (·.push address data) }

/-- The endpoint ends the stream of the wait. -/
def closeStream (w : Wait α σ) : Wait α σ :=
  { w with stream := w.stream.map fun s => { s with closed := true } }

/-- The wait has a stream that the endpoint has not ended. -/
def isStreaming (w : Wait α σ) : Bool := w.stream.any (!·.closed)

end Wait

end ComputeNet
