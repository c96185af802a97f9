import ComputeNet.Event.Log

/-!
# Live feeds

A feed (`subscribe_events`) hands the events of a scope to a receiver as the endpoint reports them
(`logs_subscribe`). Its work goes on as long as it has its stream; before each event it looks
whether it is still active, and gives up where it is not. The receiver may fail at one of its calls;
that ends the work of the feed and frees its stream, and the feed still counts as active until it is
cancelled. A feed is active (`is_active`) until it is cancelled (`cancel`) or has worked through a
stream that the endpoint ended.
-/

namespace ComputeNet

/-- A stream of log notifications. -/
structure LogStream where
  /-- The notifications that have not been worked through, oldest first. -/
  pending : List LogNotification := []
  /-- The endpoint has ended the stream. -/
  closed : Bool := false

/-- An event that the receiver of a feed has taken. -/
structure Delivery where
  event : LoggedEvent
  /-- What the receiver was told when it asked, from inside, whether the feed is active. -/
  active : Option Bool
deriving DecidableEq

structure Feed where
  scope : Scope
  /-- The receiver asks at each call whether the feed is active. -/
  asks : Bool := false
  /-- The call at which the receiver fails, counted from 1. -/
  failsAt : Option Nat := none
  /-- The stream, as long as the work on it goes on. -/
  stream : Option LogStream := some {}
  /-- Events may be handed to the receiver. -/
  isActive : Bool := true
  /-- How often the receiver has been called. -/
  calls : Nat := 0
  /-- What the receiver has taken, oldest first. -/
  delivered : List Delivery := []

namespace Feed

/-- Hands one event to the receiver. The work ends if the feed is not active any more, or if the
receiver fails. -/
def deliver (f : Feed) (event : LoggedEvent) : Feed :=
  match f.stream with
  | none => f
  | some _ =>
    if !f.isActive then { f with stream := none }
    else
      let f := { f with calls := f.calls + 1 }
      if f.failsAt = some f.calls then { f with stream := none }
      else
        let active := if f.asks then some f.isActive else none
        { f with delivered := f.delivered ++ [⟨event, active⟩] }

/-- Works through what has come. -/
def poll (f : Feed) : Feed :=
  match f.stream with
  | none => f
  | some stream =>
    let f := (stream.pending.flatMap (·.events f.scope)).foldl deliver f
    match f.stream with
    | none => f
    | some _ =>
      if stream.closed then { f with stream := none, isActive := false }
      else { f with stream := some {} }

/-- A notification reaches the feed while its stream is open. -/
def notice (n : LogNotification) (f : Feed) : Feed :=
  { f with stream := f.stream.map fun s =>
      if s.closed then s else { s with pending := s.pending ++ [n] } }

/-- The endpoint ends the stream of the feed. -/
def closeStream (f : Feed) : Feed :=
  { f with stream := f.stream.map fun s => { s with closed := true } }

/-- A feed that is cancelled is not active, and the work on its stream is broken off. -/
def cancel (f : Feed) : Feed := { f with isActive := false, stream := none }

@[simp] theorem isActive_cancel (f : Feed) : f.cancel.isActive = false := rfl

@[simp] theorem stream_cancel (f : Feed) : f.cancel.stream = none := rfl

@[simp] theorem delivered_cancel (f : Feed) : f.cancel.delivered = f.delivered := rfl

/-- The feed has a stream that the endpoint has not ended. -/
def isStreaming (f : Feed) : Bool := f.stream.any (!·.closed)

end Feed

end ComputeNet
