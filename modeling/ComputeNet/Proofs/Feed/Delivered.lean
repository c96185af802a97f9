import Mathlib.Data.List.Induction
import ComputeNet.Proofs.Feed.Moves

/-!
# What feeds deliver

What a feed delivers follows from what the endpoint has reported, whatever goes on around it
(`delivers_of_subscribe`). If its receiver never fails, that is all that was reported
(`Delivers.deliveredAt_settle`), and the feed is active until it is cancelled or the endpoint has
ended its stream (`Delivers.isActiveAt?_eq_true_iff`).
-/

namespace ComputeNet

/-- What some moves report before the endpoint ends the streams, in order. -/
def emitted (moves : List Move) : List LogNotification :=
  (moves.takeWhile (!·.endsStreams)).filterMap Move.notification?

theorem emitted_concat (moves : List Move) (m : Move) :
    emitted (moves ++ [m]) =
      if moves.any (·.endsStreams) then emitted moves
      else emitted moves ++ m.notification?.toList := by
  induction moves with
  | nil =>
    cases m with
    | settle => rfl
    | happen h => cases h <;> rfl
  | cons m' moves ih =>
    cases hends : m'.endsStreams with
    | true => simp [emitted, hends]
    | false =>
      simp only [emitted, List.cons_append, List.takeWhile_cons, hends, Bool.not_false, if_true,
        List.any_cons, Bool.false_or, List.filterMap_cons] at ih ⊢
      cases m'.notification? with
      | none => exact ih
      | some notification =>
        simp only [ih]
        split <;> rfl

/-- One of some moves stands in a relation to the moves before it. -/
def SomeMove (P : List Move → Move → Prop) (moves : List Move) : Prop :=
  ∃ before m after, moves = before ++ m :: after ∧ P before m

theorem not_someMove_nil (P : List Move → Move → Prop) : ¬ SomeMove P [] := by
  rintro ⟨before, m, after, heq, -⟩
  exact absurd heq.symm (by simp)

theorem SomeMove.append {P : List Move → Move → Prop} {moves : List Move} (h : SomeMove P moves)
    (more : List Move) : SomeMove P (moves ++ more) := by
  obtain ⟨before, m, after, rfl, hm⟩ := h
  exact ⟨before, m, after ++ more, by simp, hm⟩

theorem someMove_concat {P : List Move → Move → Prop} {moves : List Move} {m : Move} :
    SomeMove P (moves ++ [m]) ↔ SomeMove P moves ∨ P moves m := by
  constructor
  · rintro ⟨before, m', after, heq, hm⟩
    rcases List.eq_nil_or_concat after with rfl | ⟨after, last, rfl⟩
    · obtain ⟨rfl, hm'⟩ := List.append_inj' heq rfl
      cases hm'
      exact Or.inr hm
    · rw [List.concat_eq_append, ← List.cons_append, ← List.append_assoc] at heq
      obtain ⟨rfl, -⟩ := List.append_inj' heq rfl
      exact Or.inl ⟨before, m', after, rfl, hm⟩
  · rintro (h | h)
    · exact h.append [m]
    · exact ⟨moves, m, [], rfl, h⟩

namespace World

/-- The events that the `n`-th feed has delivered, oldest first. -/
def deliveredAt (w : World) (n : Nat) : List LoggedEvent :=
  ((w.feedAt? n).map fun f => f.delivered.map (·.event)).getD []

def isActiveAt? (w : World) (n : Nat) : Option Bool := (w.feedAt? n).map (·.isActive)

/-- One of some moves cancels the `n`-th feed. -/
def Cancelled (w : World) (n : Nat) : List Move → Prop :=
  SomeMove fun before m => (w.play before).cancels n m = true

/-- With a move, a feed comes to the end of its stream: the endpoint has ended it, and the receiver
has not failed at the events that came before. -/
def Finishes (w : World) (scope : Scope) (failsAt : Option Nat) (before : List Move) (m : Move) :
    Prop :=
  (w.play before).works m = true ∧ before.any (·.endsStreams) = true ∧
    Feed.takes failsAt ((emitted before).flatMap (·.events scope)) =
      (emitted before).flatMap (·.events scope)

private theorem quiet_of_works {w : World} {m : Move} (h : w.works m = true) :
    m.notification? = none ∧ m.endsStreams = false := by
  cases m with
  | settle => exact ⟨rfl, rfl⟩
  | happen happening =>
    cases happening with
    | logs | streamsClose => cases h
    | _ => exact ⟨rfl, rfl⟩

private theorem feedAt?_of_subscribe {w w' : World} {id : String} {scope : Scope} {asks : Bool}
    {failsAt : Option Nat} (h : w.subscribe id scope asks failsAt = .ok w') :
    w'.feedAt? w.feeds.length = some (Feed.poll { scope, asks, failsAt }) := by
  obtain ⟨hopen, rfl⟩ := subscribe_eq_ok_iff.mp h
  rw [act, after_subscribe, if_pos hopen, feedAt?_settle, feedAt?_cons, length_modifyFeed,
    if_pos rfl]
  rfl

/-- What becomes of a feed in the course of some moves. -/
theorem exists_fed_play {w w' : World} {id : String} {scope : Scope} {asks : Bool}
    {failsAt : Option Nat} (h : w.subscribe id scope asks failsAt = .ok w') (moves : List Move) :
    ∃ f cancelled, (w'.play moves).feedAt? w.feeds.length = some f ∧
      f.Fed scope asks failsAt (emitted moves) (moves.any (·.endsStreams)) cancelled ∧
      (cancelled = true ↔ w'.Cancelled w.feeds.length moves) ∧
      (f.isActive = false ↔ SomeMove (fun before m =>
        (w'.play before).cancels w.feeds.length m = true ∨ w'.Finishes scope failsAt before m)
        moves) := by
  induction moves using List.reverseRecOn with
  | nil =>
    obtain ⟨hfed, -, hactive⟩ := (Feed.fed_new scope asks failsAt).poll
    refine ⟨_, false, feedAt?_of_subscribe h, hfed, ?_, ?_⟩
    · exact iff_of_false Bool.false_ne_true (not_someMove_nil _)
    · refine iff_of_false ?_ (not_someMove_nil _)
      rw [hactive]
      simp
  | append_singleton moves m ih =>
    obtain ⟨f, cancelled, hf, hfed, hcancelled, hactive⟩ := ih
    have hends : (moves ++ [m]).any (·.endsStreams) =
        (moves.any (·.endsStreams) || m.endsStreams) := by simp
    obtain ⟨hfed', hactive'⟩ := hfed.undergo ((w'.play moves).cancels w.feeds.length m)
      ((w'.play moves).works m) m (emitted_concat moves m) hends
    refine ⟨_, _, ?_, hfed', ?_, ?_⟩
    · rw [play_concat]
      exact feedAt?_act hf m
    · rw [Cancelled, someMove_concat, Bool.or_eq_true, hcancelled]
      rfl
    · rw [hactive', hactive, someMove_concat]
      refine or_congr_right (or_congr_right (and_congr_right fun hworks => ?_))
      -- A move with which feeds work reports nothing.
      obtain ⟨hnone, hquiet⟩ := quiet_of_works hworks
      rw [hends, emitted_concat, hnone, hquiet, Option.toList_none, List.append_nil, ite_self,
        Bool.or_false]

/-- With nothing left to do, a feed that was not cancelled has delivered all that its receiver
takes. -/
theorem deliveredAt_settle_of_subscribe {w w' : World} {id : String} {scope : Scope} {asks : Bool}
    {failsAt : Option Nat} (h : w.subscribe id scope asks failsAt = .ok w') {moves : List Move}
    (hkept : ¬ w'.Cancelled w.feeds.length moves) :
    (w'.play moves).settle.deliveredAt w.feeds.length =
      Feed.takes failsAt ((emitted moves).flatMap (·.events scope)) := by
  obtain ⟨f, cancelled, hf, hfed, hcancelled, -⟩ := exists_fed_play h moves
  rw [← hcancelled, Bool.not_eq_true] at hkept
  rw [deliveredAt, feedAt?_settle, hf]
  exact hfed.poll.2.1 hkept

/-- What there is to say of the `n`-th feed in the course of some moves, where it was opened just
before them. -/
structure Delivers (w : World) (n : Nat) (scope : Scope) (failsAt : Option Nat)
    (moves : List Move) : Prop where
  /-- Nothing but the events that were reported is delivered, each once and in order. -/
  ordered : (w.play moves).deliveredAt n <+: (emitted moves).flatMap (·.events scope)
  /-- When there is nothing left to do, all of them are, unless the feed was cancelled. -/
  complete : ¬ w.Cancelled n moves → (w.play moves).settle.deliveredAt n =
    Feed.takes failsAt ((emitted moves).flatMap (·.events scope))
  /-- Nothing is delivered once the feed was cancelled. -/
  stopped : ∀ before m after, moves = before ++ m :: after → (w.play before).cancels n m = true →
    (w.play moves).deliveredAt n = (w.play before).deliveredAt n
  /-- The feed is active until it is cancelled or comes to the end of its stream. -/
  active : (w.play moves).isActiveAt? n = some true ↔ ¬ SomeMove (fun before m =>
    (w.play before).cancels n m = true ∨ w.Finishes scope failsAt before m) moves
  /-- After that it is not active any more. -/
  inactive : (w.play moves).isActiveAt? n = some false ↔ SomeMove (fun before m =>
    (w.play before).cancels n m = true ∨ w.Finishes scope failsAt before m) moves
  remains : (w.play moves).isActiveAt? n = some false →
    ∀ more, (w.play (moves ++ more)).isActiveAt? n = some false
  /-- To cancel it then changes nothing. -/
  again : (w.play moves).isActiveAt? n = some false → ∀ id, (w.play moves).handle? id = some n →
    (w.play moves).after (.cancelFeed id) = w.play moves
  /-- To cancel another feed changes nothing for it, now and later. -/
  apart : ∀ before id after, moves = before ++ after → (w.play before).handle? id ≠ some n →
    (w.play (before ++ .happen (.cancelFeed id) :: after)).feedAt? n = (w.play moves).feedAt? n

theorem delivers_of_subscribe {w w' : World} {id : String} {scope : Scope} {asks : Bool}
    {failsAt : Option Nat} (h : w.subscribe id scope asks failsAt = .ok w') (moves : List Move) :
    w'.Delivers w.feeds.length scope failsAt moves := by
  obtain ⟨f, cancelled, hf, hfed, -, hactive⟩ := exists_fed_play h moves
  have hisActive : (w'.play moves).isActiveAt? w.feeds.length = some f.isActive := by
    rw [isActiveAt?, hf]
    rfl
  have hinactive : (w'.play moves).isActiveAt? w.feeds.length = some false ↔
      SomeMove (fun before m => (w'.play before).cancels w.feeds.length m = true ∨
        w'.Finishes scope failsAt before m) moves := by
    rw [hisActive, Option.some.injEq, hactive]
  constructor
  case ordered =>
    rw [deliveredAt, hf]
    exact hfed.delivered_prefix
  case complete => exact deliveredAt_settle_of_subscribe h
  case stopped =>
    rintro before m after rfl hcancels
    obtain ⟨g, -, hg, -⟩ := exists_fed_play h before
    have hact := feedAt?_act hg m
    rw [hcancels] at hact
    obtain ⟨hcancel, hdelivered⟩ := g.undergo_true ((w'.play before).works m) m
    rw [deliveredAt, deliveredAt, play_append, play_cons, feedAt?_play_of_cancel hact hcancel, hg,
      Option.map_some, Option.map_some, hdelivered]
  case active =>
    rw [← hinactive, hisActive]
    simp
  case inactive => exact hinactive
  case remains =>
    intro hfalse more
    obtain ⟨f', -, hf', -, -, hactive'⟩ := exists_fed_play h (moves ++ more)
    rw [isActiveAt?, hf', Option.map_some, hactive'.mpr ((hinactive.mp hfalse).append more)]
  case again =>
    intro hfalse id' hid
    rw [hisActive, Option.some.injEq] at hfalse
    have hkept := modifyFeed_eq_self hid hf (hfed.cancel_eq_self hfalse)
    rw [World.after, hkept]
  case apart =>
    rintro before id' after rfl hother
    obtain ⟨g, -, hg, -⟩ := exists_fed_play h before
    obtain ⟨g', hg', hg''⟩ := ((alike_cancelFeed hg hother).play after).feed
    rw [play_append, play_cons, play_append, hg', hg'']

section NeverFails

variable {w : World} {n : Nat} {scope : Scope} {moves : List Move}

private theorem finishes_none_iff {before : List Move} {m : Move} :
    w.Finishes scope none before m ↔
      (w.play before).works m = true ∧ before.any (·.endsStreams) = true := by
  rw [Finishes, Feed.takes_none, eq_self, and_true]

/-- With a receiver that does not fail, all events that were reported are delivered. -/
theorem Delivers.deliveredAt_settle (h : w.Delivers n scope none moves)
    (hkept : ¬ w.Cancelled n moves) :
    (w.play moves).settle.deliveredAt n = (emitted moves).flatMap (·.events scope) := by
  rw [h.complete hkept, Feed.takes_none]

/-- With a receiver that does not fail, a feed is active until it is cancelled or gets to work after
the endpoint has ended its stream. -/
theorem Delivers.isActiveAt?_eq_true_iff (h : w.Delivers n scope none moves) :
    (w.play moves).isActiveAt? n = some true ↔ ¬ SomeMove (fun before m =>
      (w.play before).cancels n m = true ∨
        (w.play before).works m = true ∧ before.any (·.endsStreams) = true) moves := by
  simp only [h.active, finishes_none_iff]

end NeverFails

/-! ## A notification that waits while the streams end -/

/-- A client that can follow a program. -/
def following : World where
  client := { program := .replicate 32 100, network := .replicate 32 101, canSubscribe := true }

/-- The client follows a session. -/
def followingSession : World :=
  { following with feeds := [⟨"session", { scope := .session 1 }, 0⟩] }.settle

/-- A node takes on a task of the session. -/
def claim : LogNotification :=
  ⟨some (.replicate 64 1), some [Log.line (.taskClaimed ⟨1, 2, .replicate 32 1, 5⟩)], none⟩

set_option maxRecDepth 10000 in
/-- The claim comes although the streams end before the feed gets to it. -/
theorem delivers_of_subscribe_followingSession :
    following.subscribe "session" (.session 1) false none = .ok followingSession ∧
      (followingSession.play [.happen (.logs claim), .happen .streamsClose]).settle.deliveredAt 0 =
        [⟨.taskClaimed ⟨1, 2, .replicate 32 1, 5⟩, .replicate 64 1⟩] := by
  have hopen : following.subscribe "session" (.session 1) false none = .ok followingSession := rfl
  have hdelivers := delivers_of_subscribe hopen [.happen (.logs claim), .happen .streamsClose]
  have hnot : ¬ followingSession.Cancelled 0 [.happen (.logs claim), .happen .streamsClose] := by
    rintro ⟨before, m, after, heq, hcancels⟩
    have hm : m ∈ [Move.happen (.logs claim), .happen .streamsClose] :=
      heq ▸ List.mem_append_right before List.mem_cons_self
    simp only [List.mem_cons, List.not_mem_nil, or_false] at hm
    rcases hm with rfl | rfl <;> cases hcancels
  refine ⟨hopen, (hdelivers.deliveredAt_settle hnot).trans ?_⟩
  decide +kernel

end World

end ComputeNet
