import ComputeNet.Client
import ComputeNet.Feed

/-!
# Worlds

A client at work with an endpoint, in a time that passes only when told to: its waits and its
feeds, and what happens around them. Whatever happens, all background work runs until nothing more
can be done without time passing (`settle`). When time passes, work goes on at every moment at
which a wait has a timer (`runUntil`). A wait that is over fires the token of its own (`release`).
-/

namespace ComputeNet

/-- A wait for accounts of some kind. -/
structure EntityWait where
  kind : EntityKind
  wait : Wait kind.Record kind.Status

namespace EntityWait

/-- Does the same to a wait of any kind. -/
def modify (w : EntityWait)
    (f : {α σ : Type} → [Enumeration σ] → [DecidableEq σ] → Wait α σ → Wait α σ) : EntityWait :=
  { w with wait := f w.wait }

end EntityWait

structure WaitEntry where
  id : String
  wait : EntityWait
  /-- The end of the wait has been reported. -/
  reported : Bool := false

structure FeedEntry where
  id : String
  feed : Feed
  /-- How many of the delivered events have been reported. -/
  reported : Nat := 0

/-- A client, an endpoint, and what is going on between them. -/
structure World where
  client : Client
  endpoint : Endpoint := {}
  /-- The time, in milliseconds. -/
  now : Nat := 0
  /-- The tokens of callers that have been fired. -/
  fired : List Token := []
  /-- The waits, latest first. -/
  waits : List WaitEntry := []
  /-- The feeds, latest first. -/
  feeds : List FeedEntry := []

namespace World

/-- What the waits see of the world. -/
def surroundings (w : World) : Surroundings where
  endpoint := w.endpoint
  canSubscribe := w.client.canSubscribe
  fired := w.fired
  now := w.now

/-- Does the same to every wait. -/
def mapWaits (w : World)
    (f : {α σ : Type} → [Enumeration σ] → [DecidableEq σ] → Wait α σ → Wait α σ) : World :=
  { w with waits := w.waits.map fun e => { e with wait := e.wait.modify f } }

def mapFeeds (w : World) (f : Feed → Feed) : World :=
  { w with feeds := w.feeds.map fun e => { e with feed := f e.feed } }

/-- A token in a world: one that a caller has, or the own one of the wait that was started as the
`n`-th, counted from 0. -/
inductive AnyToken where
  | given (token : Token)
  | own (n : Nat)
deriving DecidableEq

/-- Fires the own token of the `n`-th wait. -/
def fireOwn (n : Nat) : List WaitEntry → List WaitEntry
  | [] => []
  | e :: es =>
    if es.length = n then { e with wait := e.wait.modify (·.fireOwn) } :: es
    else e :: fireOwn n es

/-- Fires a token. The children of the token find out when they look for their parent. -/
def fire (w : World) : AnyToken → World
  | .given token => { w with fired := token :: w.fired }
  | .own n => { w with waits := fireOwn n w.waits }

/-- The numbers of the waits that are over, latest first. -/
def overNumbers : List WaitEntry → List Nat
  | [] => []
  | e :: es => if e.wait.wait.isFinished then es.length :: overNumbers es else overNumbers es

/-- Every wait that is over fires the token of its own. -/
def release (w : World) : World := (overNumbers w.waits).foldl (fun w n => w.fire (.own n)) w

/-- All background work goes as far as it gets now. -/
def settle (w : World) : World :=
  (w.mapWaits (·.poll w.surroundings)).release.mapFeeds Feed.poll

theorem foldl_fire_own (w : World) (numbers : List Nat) :
    numbers.foldl (fun w n => w.fire (.own n)) w =
      { w with waits := numbers.foldl (fun es n => fireOwn n es) w.waits } := by
  induction numbers generalizing w with
  | nil => rfl
  | cons n numbers ih => exact ih (w.fire (.own n))

@[simp] theorem settle_now (w : World) : w.settle.now = w.now := by
  rw [settle, release, foldl_fire_own]
  rfl

/-- The next time at which a wait has a timer. -/
def nextTimer? (w : World) : Option Nat :=
  ((w.waits.flatMap fun e => e.wait.wait.timers).filter (w.now < ·)).min?

/-- Time passes up to a given moment. -/
def runUntil (target : Nat) (w : World) : World :=
  match w.nextTimer? with
  | some t =>
    if w.now < t ∧ t ≤ target then runUntil target { w with now := t }.settle
    else { w with now := max w.now target }.settle
  | none => { w with now := max w.now target }.settle
termination_by target - w.now
decreasing_by simp only [settle_now]; omega

/-- The wait that goes by a name. -/
def wait? (w : World) (id : String) : Option EntityWait :=
  (w.waits.find? (·.id = id)).map (·.wait)

/-- The feed that goes by a name. -/
def feed? (w : World) (id : String) : Option Feed :=
  (w.feeds.find? (·.id = id)).map (·.feed)

/-- Changes the feed that goes by a name; an earlier one of that name is let be. -/
def modifyFeed (id : String) (f : Feed → Feed) : List FeedEntry → List FeedEntry
  | [] => []
  | e :: es => if e.id = id then { e with feed := f e.feed } :: es else e :: modifyFeed id f es

/-! ## What can be counted -/

def accountStreamsOpened (w : World) : Nat :=
  w.waits.foldl (fun n e => n + e.wait.wait.opened) 0

def accountStreams (w : World) : Nat := w.waits.countP fun e => e.wait.wait.isStreaming

def logStreamsOpened (w : World) : Nat := w.feeds.length

def logStreams (w : World) : Nat := w.feeds.countP fun e => e.feed.isStreaming

end World

end ComputeNet
