import ComputeNet.Feed

/-!
# The course of a feed

A feed works through its notifications until its receiver fails, its stream ends or it is cancelled.
In whichever of these states it is, what it has delivered follows from the notifications that have
reached it (`Fed`).
-/

namespace ComputeNet.Feed

/-- The events that a receiver takes before the call at which it fails, if it fails. -/
def takes (failsAt : Option Nat) (events : List LoggedEvent) : List LoggedEvent :=
  match failsAt with
  | some (k + 1) => events.take k
  | _ => events

/-- What is delivered with some events. At each call the feed is active. -/
def deliveries (asks : Bool) (events : List LoggedEvent) : List Delivery :=
  events.map fun event => ⟨event, if asks then some true else none⟩

@[simp] theorem map_event_deliveries (asks : Bool) (events : List LoggedEvent) :
    (deliveries asks events).map (·.event) = events := by
  rw [deliveries, List.map_map]
  exact List.map_id events

/-- A receiver that does not fail takes all events. -/
@[simp] theorem takes_none (events : List LoggedEvent) : takes none events = events := rfl

variable {failsAt : Option Nat} {events more : List LoggedEvent}

private theorem takes_prefix (failsAt : Option Nat) (events : List LoggedEvent) :
    takes failsAt events <+: events := by
  unfold takes
  split
  · exact List.take_prefix _ events
  · exact List.prefix_refl events

theorem takes_eq_self_iff :
    takes failsAt events = events ↔ ∀ k, failsAt = some (k + 1) → events.length ≤ k := by
  unfold takes
  split
  next k =>
    refine ⟨fun h => ?_, fun h => List.take_of_length_le (h k rfl)⟩
    rintro _ ⟨⟩
    rw [← h]
    exact List.length_take_le k events
  next hne => exact iff_of_true rfl fun k hk => (hne k hk).elim

/-- Nothing that comes later reaches a receiver that has failed. -/
theorem takes_append_of_ne (h : takes failsAt events ≠ events) :
    takes failsAt (events ++ more) = takes failsAt events := by
  obtain ⟨k, rfl, hk⟩ : ∃ k, failsAt = some (k + 1) ∧ k < events.length := by
    simpa [takes_eq_self_iff] using h
  exact List.take_append_of_le_length (Nat.le_of_lt hk)

private theorem takes_append_ne_self (h : takes failsAt events ≠ events) :
    takes failsAt (events ++ more) ≠ events ++ more := by
  intro hall
  refine h (takes_eq_self_iff.mpr fun k hk => ?_)
  have hle := takes_eq_self_iff.mp hall k hk
  rw [List.length_append] at hle
  omega

/-- A feed that has lost its stream delivers nothing. -/
private theorem foldl_deliver_of_none {f : Feed} (h : f.stream = none) (events : List LoggedEvent) :
    events.foldl deliver f = f := by
  induction events with
  | nil => rfl
  | cons event events ih =>
    have hdeliver : f.deliver event = f := by rw [deliver, h]
    rw [List.foldl_cons, hdeliver, ih]

/-- A feed that is not active delivers nothing, even while it still has its stream. -/
private theorem foldl_deliver_of_inactive {f : Feed} (h : f.isActive = false)
    (events : List LoggedEvent) :
    (events.foldl deliver f).isActive = false ∧
      (events.foldl deliver f).delivered = f.delivered := by
  induction events generalizing f with
  | nil => exact ⟨h, rfl⟩
  | cons event events ih =>
    have hdeliver : (f.deliver event).isActive = false ∧
        (f.deliver event).delivered = f.delivered := by
      rw [deliver]
      split
      · exact ⟨h, rfl⟩
      · rw [h]
        exact ⟨rfl, rfl⟩
    obtain ⟨hactive, hdelivered⟩ := ih hdeliver.1
    exact ⟨hactive, hdelivered.trans hdeliver.2⟩

theorem delivered_poll_of_inactive {f : Feed} (h : f.isActive = false) :
    f.poll.delivered = f.delivered := by
  rw [poll]
  split
  · rfl
  next stream hstream =>
    have hdelivered :=
      (foldl_deliver_of_inactive h (stream.pending.flatMap (·.events f.scope))).2
    dsimp only
    split
    · exact hdelivered
    · split <;> exact hdelivered

/-- A feed delivers one event after the other, unless its receiver fails. -/
theorem foldl_deliver (scope : Scope) (asks : Bool) (stream : LogStream)
    (hbefore : takes failsAt events = events) (more : List LoggedEvent) :
    more.foldl deliver ⟨scope, asks, failsAt, some stream, true, events.length,
        deliveries asks events⟩ =
      if takes failsAt (events ++ more) = events ++ more then
        ⟨scope, asks, failsAt, some stream, true, (events ++ more).length,
          deliveries asks (events ++ more)⟩
      else
        ⟨scope, asks, failsAt, none, true, (takes failsAt (events ++ more)).length + 1,
          deliveries asks (takes failsAt (events ++ more))⟩ := by
  induction more generalizing events with
  | nil => rw [List.append_nil, if_pos hbefore, List.foldl_nil]
  | cons event more ih =>
    rw [List.foldl_cons]
    by_cases hfails : failsAt = some (events.length + 1)
    · -- The receiver fails at this event.
      have hne : takes failsAt (events ++ event :: more) ≠ events ++ event :: more := by
        rw [ne_eq, takes_eq_self_iff]
        intro hall
        have hle := hall _ hfails
        rw [List.length_append, List.length_cons] at hle
        omega
      have htakes : takes failsAt (events ++ event :: more) = events := by
        rw [hfails]
        exact List.take_left
      rw [if_neg hne, htakes, deliver]
      simp only [hfails, if_true]
      exact foldl_deliver_of_none rfl more
    · have hafter : takes failsAt (events ++ [event]) = events ++ [event] := by
        rw [takes_eq_self_iff]
        intro k hk
        have hle := takes_eq_self_iff.mp hbefore k hk
        have hne : k ≠ events.length := by
          rintro rfl
          exact hfails hk
        rw [List.length_append, List.length_singleton]
        omega
      have hdeliver : (⟨scope, asks, failsAt, some stream, true, events.length,
          deliveries asks events⟩ : Feed).deliver event =
          ⟨scope, asks, failsAt, some stream, true, (events ++ [event]).length,
            deliveries asks (events ++ [event])⟩ := by
        simp only [deliver, Bool.not_true, Bool.false_eq_true, hfails, if_false, deliveries,
          List.map_append, List.length_append, List.length_singleton, List.map_singleton]
      rw [hdeliver, ih hafter, List.append_assoc, List.singleton_append]

/-- A feed that is active works through its stream. The work ends if its receiver fails or the
endpoint has ended the stream. -/
theorem poll_running (asks : Bool) {scope : Scope} {seen pending : List LogNotification}
    (ended : Bool) (hevents : seen.flatMap (·.events scope) = events)
    (hbefore : takes failsAt events = events) {all : List LoggedEvent}
    (hall : (seen ++ pending).flatMap (·.events scope) = all) :
    Feed.poll ⟨scope, asks, failsAt, some ⟨pending, ended⟩, true, events.length,
        deliveries asks events⟩ =
      if takes failsAt all = all then
        ⟨scope, asks, failsAt, if ended then none else some {}, !ended, all.length,
          deliveries asks all⟩
      else
        ⟨scope, asks, failsAt, none, true, (takes failsAt all).length + 1,
          deliveries asks (takes failsAt all)⟩ := by
  subst hall
  rw [List.flatMap_append, hevents, poll]
  simp only [foldl_deliver scope asks ⟨pending, ended⟩ hbefore]
  by_cases hsurvives : takes failsAt (events ++ pending.flatMap (·.events scope)) =
      events ++ pending.flatMap (·.events scope)
  · simp only [if_pos hsurvives]
    cases ended <;> rfl
  · simp only [if_neg hsurvives]

/-- Work that has been done is not done again. -/
theorem poll_poll (f : Feed) : f.poll.poll = f.poll := by
  cases hstream : f.stream with
  | none =>
    have hpoll : f.poll = f := by rw [poll, hstream]
    rw [hpoll, hpoll]
  | some stream =>
    obtain ⟨g, hg⟩ : ∃ g, g = (stream.pending.flatMap (·.events f.scope)).foldl deliver f :=
      ⟨_, rfl⟩
    cases hg' : g.stream with
    | none =>
      have hpoll : f.poll = g := by simp only [poll, hstream, ← hg, hg']
      have hrest : g.poll = g := by simp only [poll, hg']
      rw [hpoll, hrest]
    | some _ =>
      cases hclosed : stream.closed with
      | true =>
        have hpoll : f.poll = { g with stream := none, isActive := false } := by
          simp only [poll, hstream, ← hg, hg', hclosed, if_true]
        exact (congrArg poll hpoll).trans hpoll.symm
      | false =>
        have hpoll : f.poll = { g with stream := some {} } := by
          simp only [poll, hstream, ← hg, hg', hclosed, Bool.false_eq_true, if_false]
        exact (congrArg poll hpoll).trans hpoll.symm

/-- What has become of a feed, by the notifications that were reported before the endpoint ended its
stream, and by whether the endpoint has, and whether the feed was cancelled. -/
inductive Fed (scope : Scope) (asks : Bool) (failsAt : Option Nat) :
    List LogNotification → Bool → Bool → Feed → Prop
  /-- It has delivered all events but those of the notifications that it has yet to work through. -/
  | running {seen pending : List LogNotification} {ended : Bool} {calls : Nat}
      {events : List LoggedEvent} (hevents : seen.flatMap (·.events scope) = events)
      (hcalls : calls = events.length) (htakes : takes failsAt events = events) :
      Fed scope asks failsAt (seen ++ pending) ended false
        ⟨scope, asks, failsAt, some ⟨pending, ended⟩, true, calls, deliveries asks events⟩
  /-- Its receiver has failed. -/
  | failed {told : List LogNotification} {ended : Bool} {calls : Nat}
      {events : List LoggedEvent} (hevents : takes failsAt (told.flatMap (·.events scope)) = events)
      (htakes : events ≠ told.flatMap (·.events scope)) :
      Fed scope asks failsAt told ended false
        ⟨scope, asks, failsAt, none, true, calls, deliveries asks events⟩
  /-- It has worked through all of its stream. -/
  | finished {told : List LogNotification} {calls : Nat} {events : List LoggedEvent}
      (hevents : told.flatMap (·.events scope) = events) (htakes : takes failsAt events = events) :
      Fed scope asks failsAt told true false
        ⟨scope, asks, failsAt, none, false, calls, deliveries asks events⟩
  | cancelled {told : List LogNotification} {ended : Bool} {calls : Nat}
      {events : List LoggedEvent} (hevents : events <+: told.flatMap (·.events scope)) :
      Fed scope asks failsAt told ended true
        ⟨scope, asks, failsAt, none, false, calls, deliveries asks events⟩

section Fed

variable {scope : Scope} {asks : Bool} {told : List LogNotification} {ended cancelled : Bool}
  {f : Feed}

theorem fed_new (scope : Scope) (asks : Bool) (failsAt : Option Nat) :
    Fed scope asks failsAt ([] ++ []) false false { scope, asks, failsAt } :=
  .running rfl rfl (takes_eq_self_iff.mpr fun _ _ => Nat.zero_le _)

/-- A feed delivers nothing but the events of its scope, in order. -/
theorem Fed.delivered_prefix (h : Fed scope asks failsAt told ended cancelled f) :
    f.delivered.map (·.event) <+: told.flatMap (·.events scope) := by
  cases h with
  | running hevents _ _ =>
    rw [map_event_deliveries, ← hevents, List.flatMap_append]
    exact List.prefix_append _ _
  | failed hevents _ =>
    rw [map_event_deliveries, ← hevents]
    exact takes_prefix failsAt _
  | finished hevents _ =>
    rw [map_event_deliveries]
    exact hevents ▸ List.prefix_refl _
  | cancelled hevents => rwa [map_event_deliveries]

/-- A feed that is not active has given up its stream. -/
theorem Fed.cancel_eq_self (h : Fed scope asks failsAt told ended cancelled f)
    (hactive : f.isActive = false) : f.cancel = f := by
  cases h with
  | running | failed => cases hactive
  | finished | cancelled => rfl

theorem Fed.cancel (h : Fed scope asks failsAt told ended cancelled f) :
    Fed scope asks failsAt told ended true f.cancel := by
  have hprefix := h.delivered_prefix
  cases h with
  | running | failed | finished | cancelled =>
    rw [map_event_deliveries] at hprefix
    exact .cancelled hprefix

theorem Fed.notice (h : Fed scope asks failsAt told ended cancelled f) (n : LogNotification) :
    Fed scope asks failsAt (if ended then told else told ++ [n]) ended cancelled (f.notice n) := by
  cases ended with
  | true =>
    cases h with
    | running hevents hcalls htakes => exact .running hevents hcalls htakes
    | failed hevents htakes => exact .failed hevents htakes
    | finished hevents htakes => exact .finished hevents htakes
    | cancelled hevents => exact .cancelled hevents
  | false =>
    rw [if_neg Bool.false_ne_true]
    cases h with
    | running hevents hcalls htakes =>
      rw [List.append_assoc]
      exact .running hevents hcalls htakes
    | failed hevents htakes =>
      rw [← hevents] at htakes
      refine .failed ?_ ?_ <;> rw [List.flatMap_append]
      · rw [takes_append_of_ne htakes, hevents]
      · rw [← hevents, ← takes_append_of_ne htakes]
        exact takes_append_ne_self htakes
    | cancelled hevents =>
      refine .cancelled (hevents.trans ?_)
      rw [List.flatMap_append]
      exact List.prefix_append _ _

theorem Fed.closeStream (h : Fed scope asks failsAt told ended cancelled f) :
    Fed scope asks failsAt told true cancelled f.closeStream := by
  cases h with
  | running hevents hcalls htakes => exact .running hevents hcalls htakes
  | failed hevents htakes => exact .failed hevents htakes
  | finished hevents htakes => exact .finished hevents htakes
  | cancelled hevents => exact .cancelled hevents

/-- A feed works through what has come. Unless it was cancelled, it has delivered then all that its
receiver takes. It turns inactive if its stream has ended and its receiver has not failed. -/
theorem Fed.poll (h : Fed scope asks failsAt told ended cancelled f) :
    Fed scope asks failsAt told ended cancelled f.poll ∧
      (cancelled = false →
        f.poll.delivered.map (·.event) = takes failsAt (told.flatMap (·.events scope))) ∧
      (f.poll.isActive = false ↔ f.isActive = false ∨ ended = true ∧
        takes failsAt (told.flatMap (·.events scope)) = told.flatMap (·.events scope)) := by
  cases h with
  | @running seen pending ended _ events hevents hcalls htakes =>
    subst hcalls
    obtain ⟨all, hall⟩ : ∃ all, (seen ++ pending).flatMap (·.events scope) = all := ⟨_, rfl⟩
    rw [poll_running asks ended hevents htakes hall, hall]
    by_cases hsurvives : takes failsAt all = all
    · rw [if_pos hsurvives]
      cases ended with
      | true => exact ⟨.finished hall hsurvives, by simp [hsurvives]⟩
      | false =>
        refine ⟨?_, by simp [hsurvives]⟩
        have hrunning : Fed scope asks failsAt ((seen ++ pending) ++ []) false false _ :=
          .running hall rfl hsurvives
        rwa [List.append_nil] at hrunning
    · rw [if_neg hsurvives]
      exact ⟨.failed (hall ▸ rfl) (hall ▸ hsurvives), by simp [hsurvives]⟩
  | failed hevents htakes =>
    exact ⟨.failed hevents htakes, by simp [Feed.poll, hevents, htakes]⟩
  | finished hevents htakes =>
    exact ⟨.finished hevents htakes, by simp [Feed.poll, hevents, htakes]⟩
  | cancelled hevents => exact ⟨.cancelled hevents, by simp [Feed.poll]⟩

end Fed

end ComputeNet.Feed
