import Mathlib.Data.Finset.Card
import Mathlib.Data.List.Induction
import ComputeNet.Proofs.Wait.Ends
import ComputeNet.Proofs.World.Told

/-!
# Causes of failures

What the moves of a world have to be like for a wait to fail with an error (`Demands`). The move
with which a wait fails polls it for one of the causes of that error (`Begins.demands_act`).
-/

namespace ComputeNet

/-- No item is kept twice. -/
private theorem nodup_eraseDups {α : Type} [DecidableEq α] (items : List α) :
    items.eraseDups.Nodup := by
  induction hlength : items.length using Nat.strongRecOn generalizing items with
  | ind n ih =>
    cases items with
    | nil => exact List.nodup_nil
    | cons a items =>
      have hlt : (items.filter fun b => !b == a).length < n := by
        rw [← hlength, List.length_cons]
        exact Nat.lt_succ_of_le (List.length_filter_le _ items)
      rw [List.eraseDups_cons, List.nodup_cons]
      exact ⟨by simp [List.mem_eraseDups], ih _ hlt _ rfl⟩

/-- What a wait for all of its targets expects is the number of targets, each counted once. -/
private theorem WaitRequest.expected_eq {α σ : Type} (r : WaitRequest α σ) :
    r.expected = match r.mode with
      | .first => 1
      | .all => r.targets.toFinset.card := by
  rw [expected]
  cases r.mode with
  | first => rfl
  | all =>
    have hsame : r.targets.toFinset = r.targets.eraseDups.toFinset := by
      ext key
      rw [List.mem_toFinset, List.mem_toFinset, List.mem_eraseDups]
    exact (hsame ▸ List.toFinset_card_of_nodup (nodup_eraseDups r.targets)).symm

namespace Endpoint

/-- The errors of an endpoint are its own. -/
theorem transport_of_serve {endpoint : Endpoint} {call : Call} {e : ClientError}
    (h : endpoint.serve call = .error e) : ∃ cause, e = .transport cause := by
  rw [serve] at h
  split at h
  · cases h
    exact ⟨_, rfl⟩
  · cases h

theorem transport_of_listing {endpoint : Endpoint} {filters : List Filter} {e : ClientError}
    (h : endpoint.listing filters = .error e) : ∃ cause, e = .transport cause := by
  rw [listing] at h
  cases hserve : endpoint.serve .getProgramAccounts with
  | error e' =>
    rw [hserve] at h
    cases h
    exact transport_of_serve hserve
  | ok =>
    rw [hserve] at h
    cases h

end Endpoint

namespace Wait

variable {α σ : Type} {w : Wait α σ}

/-- A move leaves the phase and the deadline of a wait to its polls. -/
theorem undergo_frame (w : Wait α σ) (m : Move) :
    (w.undergo m).phase = w.phase ∧ (w.undergo m).deadline = w.deadline := by
  cases m with
  | settle => exact ⟨rfl, rfl⟩
  | happen h => cases h <;> exact ⟨rfl, rfl⟩

theorem outcome?_undergo (w : Wait α σ) (m : Move) : (w.undergo m).outcome? = w.outcome? := by
  rw [outcome?, (w.undergo_frame m).1, outcome?]

theorem stage_undergo (w : Wait α σ) (m : Move) : (w.undergo m).stage = w.stage := by
  rw [stage, (w.undergo_frame m).1, stage]

/-- The stream of a wait has been ended if the move ends it, or it had been before. -/
theorem closed_undergo {m : Move} {stream' : AccountStream}
    (hstream : (w.undergo m).stream = some stream') (hclosed : stream'.closed = true) :
    ∃ stream, w.stream = some stream ∧ (stream.closed = true ∨ m = .happen .streamsClose) := by
  cases m with
  | settle => exact ⟨stream', hstream, Or.inl hclosed⟩
  | happen h =>
    cases h with
    | account a =>
      obtain ⟨stream, hw, rfl⟩ := Option.map_eq_some_iff.mp hstream
      refine ⟨stream, hw, Or.inl ?_⟩
      rw [AccountStream.push] at hclosed
      split at hclosed <;> exact hclosed
    | streamsClose =>
      obtain ⟨stream, hw, -⟩ := Option.map_eq_some_iff.mp hstream
      exact ⟨stream, hw, Or.inr rfl⟩
    | _ => exact ⟨stream', hstream, Or.inl hclosed⟩

/-- Nothing happens any more to a wait that is over and has let go of its stream. -/
theorem undergo_eq_self (h : w.stream = none) (m : Move) : w.undergo m = w := by
  obtain ⟨request, deadline, phase, stream, opened, ownFired⟩ := w
  cases h
  cases m with
  | settle => rfl
  | happen h => cases h <;> rfl

variable [Enumeration σ] [DecidableEq σ] {listed : Option (List RawAccount)}
  {arrived : List (Address × Bytes)}

theorem Informed.stream_eq_none (h : w.Informed listed arrived)
    {outcome : Except ClientError (Found α)} (hend : w.outcome? = some outcome) :
    w.stream = none := by
  obtain ⟨request, deadline, phase, stream, opened, ownFired⟩ := w
  cases h with
  | failed | found => rfl
  | _ => cases hend

theorem Informed.stage_of_stream (h : w.Informed listed arrived) {stream : AccountStream}
    (hstream : w.stream = some stream) : w.stage = .listening := by
  obtain ⟨request, deadline, phase, stream', opened, ownFired⟩ := w
  cases h with
  | listening => rfl
  | _ => cases hstream

/-- A wait that has looked at all changes and goes on has not been shown enough. -/
private theorem Informed.not_enough (h : w.Informed listed arrived) {found : Found α}
    {stream : AccountStream} (hphase : w.phase = .listening found)
    (hstream : w.stream = some stream)
    (hmore : (consume w.request found stream.pending).2 = false) :
    ∃ accounts, listed = some accounts ∧
      ¬ w.request.Enough (w.request.sightings (accounts.map RawAccount.change ++ arrived)) := by
  obtain ⟨request, deadline, phase, stream', opened, ownFired⟩ := w
  cases h with
  | @listening _ _ accounts seen _ _ hfound hbefore harrived =>
    cases hphase
    cases hstream
    dsimp only at hfound hbefore hmore ⊢
    subst hfound harrived
    refine ⟨accounts, rfl, ?_⟩
    rw [← WaitRequest.isComplete_foundIn_iff, ← List.append_assoc]
    rcases request.consume_foundIn _ stream.pending hbefore with
      ⟨-, hrest⟩ | ⟨seen', -, -, hconsume⟩
    · rw [hrest]
      exact Bool.false_ne_true
    · rw [hconsume] at hmore
      cases hmore
  | _ => cases hphase

end Wait

namespace World

variable {kind : EntityKind} {n : Nat} {w : World}

theorem outcomeAt?_eq_none_iff {wait : Wait kind.Record kind.Status}
    (h : w.waitAt? n = some ⟨kind, wait⟩) : w.outcomeAt? n = none ↔ wait.outcome? = none := by
  simp [outcomeAt?, h]

/-- The `n`-th wait is over after some moves, and was not before the last of them. -/
structure EndsAfter (w : World) (n : Nat) (moves : List Move) : Prop where
  finished : (w.play moves).stage? n = some .finished
  unfinished : ∀ earlier, earlier <+: moves → earlier ≠ moves →
    (w.play earlier).stage? n ≠ some .finished

/-- The causes for which the `n`-th wait, which has just begun, fails with the last of some
moves. -/
inductive Demands (w : World) (n : Nat) {kind : EntityKind}
    (request : WaitRequest kind.Record kind.Status) (deadline : Option Nat) (moves : List Move) :
    ClientError → Prop
  | means (hcan : w.client.canSubscribe = false) :
      Demands w n request deadline moves .missingSubscriptionTransport
  | targets (hcan : w.client.canSubscribe = true) (htargets : request.targets = []) :
      Demands w n request deadline moves .emptyTargets
  | token (hfired : request.isCalledOff (w.play moves).fired = true) :
      Demands w n request deadline moves .cancelled
  /-- The listing failed with this error. -/
  | listing {cause : TransportError} (hquiet : request.isCalledOff (w.play moves).fired = false)
      (hlisting : (w.play moves).endpoint.listing request.filters = .error (.transport cause)) :
      Demands w n request deadline moves (.transport cause)
  /-- The listing did not show enough, and the call for a stream failed with this error. -/
  | subscribing {cause : TransportError} {listed : List RawAccount}
      (hquiet : request.isCalledOff (w.play moves).fired = false)
      (hlisting : (w.play moves).endpoint.listing request.filters = .ok listed)
      (hmore : ¬ request.Enough (request.sightings (listed.map RawAccount.change)))
      (hserve : (w.play moves).endpoint.serve .programSubscribe = .error (.transport cause)) :
      Demands w n request deadline moves (.transport cause)
  /-- The endpoint ended the stream of the wait. What had come of it until then was looked at, and
  together with the listing it did not show enough. -/
  | stream {before after : List Move} {listed : List RawAccount} {j : Nat}
      (hquiet : request.isCalledOff (w.play moves).fired = false)
      (hclose : moves = before ++ .happen .streamsClose :: after)
      (hlistens : (w.play before).stage? n = some .listening)
      (hlists : w.ListsWith n request.filters moves j listed)
      (hmore : ¬ request.Enough
        (request.sightings (listed.map RawAccount.change ++ w.arrivals n moves))) :
      Demands w n request deadline moves (.streamEnded (Enumeration.name request.status))
  /-- The deadline has come. The targets that count are told once each. -/
  | deadline {time : Nat} (hquiet : request.isCalledOff (w.play moves).fired = false)
      (htime : deadline = some time) (hle : time ≤ (w.play moves).now) :
      Demands w n request deadline moves (.timeout
        (match request.mode with
          | .first => 1
          | .all => request.targets.toFinset.card)
        (Enumeration.name request.status))

section Demands

variable {request : WaitRequest kind.Record kind.Status} {deadline : Option Nat}
  {moves : List Move} {listed : Option (List RawAccount)} {wait : Wait kind.Record kind.Status}
  {s : Surroundings} {e : ClientError}

/-- The cause for which a poll ends a wait, seen from the moves that lead to it. -/
theorem demands_of_fails (hs : (w.play moves).Surrounds s) (hown : wait.ownFired = false)
    (hinformed : wait.Informed listed (w.arrivals n moves)) (hrequest : wait.request = request)
    (hdeadline : wait.deadline = deadline)
    (hstream : ∀ stream, wait.stream = some stream → stream.closed = true →
      (∃ before after, moves = before ++ .happen .streamsClose :: after ∧
        (w.play before).stage? n = some .listening) ∧
      ∀ accounts, listed = some accounts → ∃ j, w.ListsWith n request.filters moves j accounts)
    (hfails : wait.Fails s e) : w.Demands n request deadline moves e := by
  have hcanSubscribe := hs.canSubscribe
  rw [client_play] at hcanSubscribe
  subst hrequest hdeadline
  have hcalled : wait.isCalledOff s.fired = wait.request.isCalledOff (w.play moves).fired := by
    rw [Wait.isCalledOff, hown, Bool.false_or, hs.fired]
  cases hfails with
  | means hphase hcan => exact .means (hcanSubscribe ▸ hcan)
  | targets hphase hcan htargets => exact .targets (hcanSubscribe ▸ hcan) htargets
  | token hfired => exact .token (hcalled ▸ hfired)
  | listing hquiet hlisting =>
    obtain ⟨cause, rfl⟩ := Endpoint.transport_of_listing hlisting
    exact .listing (hcalled ▸ hquiet) (hs.endpoint ▸ hlisting)
  | subscribing hquiet hlisting hmore hserve =>
    obtain ⟨cause, rfl⟩ := Endpoint.transport_of_serve hserve
    refine .subscribing (hcalled ▸ hquiet) (hs.endpoint ▸ hlisting) ?_ (hs.endpoint ▸ hserve)
    rw [← WaitRequest.isComplete_foundIn_iff, ← WaitRequest.lookAll_eq, hmore]
    exact Bool.false_ne_true
  | stream hquiet hphase hsome hclosed hmore =>
    obtain ⟨⟨before, after, hclose, hlistens⟩, hlists⟩ := hstream _ hsome hclosed
    obtain ⟨accounts, haccounts, hnot⟩ := hinformed.not_enough hphase hsome hmore
    obtain ⟨j, hlists⟩ := hlists accounts haccounts
    exact .stream (hcalled ▸ hquiet) hclose hlistens hlists hnot
  | deadline hquiet htime hle =>
    rw [WaitRequest.expected_eq]
    exact .deadline (hcalled ▸ hquiet) htime (Nat.le_trans hle hs.now_le)

/-- Who listens to an ended stream listened when the endpoint ended it. -/
private theorem Begins.closed_play (h : w.Begins n request)
    (hwait : w.waitAt? n = some ⟨kind, wait⟩)
    (hopen : ∀ stream, wait.stream = some stream → stream.closed = false) (moves : List Move) :
    ∃ wait', (w.play moves).waitAt? n = some ⟨kind, wait'⟩ ∧ wait'.deadline = wait.deadline ∧
      ∀ stream, wait'.stream = some stream → stream.closed = true →
        ∃ before after, moves = before ++ .happen .streamsClose :: after ∧
          (w.play before).stage? n = some .listening := by
  induction moves using List.reverseRecOn with
  | nil =>
    refine ⟨wait, hwait, rfl, ?_⟩
    intro stream hstream hclosed
    exact absurd ((hopen stream hstream).symm.trans hclosed) (by decide)
  | append_singleton moves m ih =>
    obtain ⟨wait', hwait', hdeadline, hclosed'⟩ := ih
    obtain ⟨polls, -, hwaits⟩ := waitAt?_act (w.play moves) m
    have hkeeps := Wait.keeps_pollAll polls (wait'.undergo m)
    rw [play_concat]
    refine ⟨_, hwaits n _ hwait', ?_, ?_⟩
    · rw [hkeeps.deadline, (Wait.undergo_frame _ m).2, hdeadline]
    · intro stream hstream hclosed
      obtain ⟨struck, hstruck, hends⟩ := hkeeps.closed stream hstream hclosed
      obtain ⟨stream', hstream', hwas | rfl⟩ := Wait.closed_undergo hstruck hends
      · obtain ⟨before, after, rfl, hlistens⟩ := hclosed' stream' hstream' hwas
        exact ⟨before, after ++ [m], by simp, hlistens⟩
      · obtain ⟨wait'', listed, hwait'', -, hinformed, -⟩ := h.informed_play moves
        cases hwait'.symm.trans hwait''
        refine ⟨moves, [], rfl, ?_⟩
        rw [stage?_eq_some hwait', hinformed.stage_of_stream hstream']

theorem ListsWith.append {filters : List Filter} {j : Nat} {accounts : List RawAccount}
    (h : w.ListsWith n filters moves j accounts) (more : List Move) :
    w.ListsWith n filters (moves ++ more) j accounts := by
  have htake (i : Nat) (hi : i ≤ j) : (moves ++ more).take i = moves.take i :=
    List.take_append_of_le_length (Nat.le_trans hi h.le_length)
  refine ⟨?_, ?_, ?_, ?_⟩
  · rw [List.length_append]
    exact Nat.le_add_right_of_le h.le_length
  · intro i hi
    rw [htake i (Nat.le_of_lt hi)]
    exact h.before i hi
  · rw [htake j (Nat.le_refl j)]
    exact h.after
  · rw [htake j (Nat.le_refl j)]
    exact h.listing

/-- A move that ends a wait with an error does so for one of the causes. -/
theorem Begins.demands_act (h : w.Begins n request) (hwait : w.waitAt? n = some ⟨kind, wait⟩)
    (hopen : ∀ stream, wait.stream = some stream → stream.closed = false) (moves : List Move)
    (m : Move) (hbefore : (w.play moves).outcomeAt? n = none)
    (hend : (w.play (moves ++ [m])).outcomeAt? n = some ⟨kind, .error e⟩) :
    w.Demands n request wait.deadline (moves ++ [m]) e := by
  obtain ⟨wait', hwait', hdeadline, hclosed⟩ := h.closed_play hwait hopen moves
  obtain ⟨wait'', listed, hwait'', hrequest, hinformed, hlists⟩ := h.informed_play moves
  cases hwait'.symm.trans hwait''
  obtain ⟨polls, hpolls, hwaits⟩ := waitAt?_act (w.play moves) m
  rw [← play_concat] at hpolls hwaits
  -- One of the polls ends the wait.
  rw [outcomeAt?_eq_some_iff (hwaits n _ hwait')] at hend
  have hnone : (wait'.undergo m).outcome? = none := by
    rwa [Wait.outcome?_undergo, ← outcomeAt?_eq_none_iff hwait']
  obtain ⟨earlier, s, later, rfl, hopen', hlast⟩ := Wait.exists_poll hnone hend
  have hundergo := informed_undergo hwait' hinformed m
  obtain ⟨listed', hinformed', hlisted'⟩ := Wait.informed_pollAll hundergo
    (w.play (moves ++ [m])).endpoint earlier
    fun t ht => (hpolls t (List.mem_append_left _ ht)).endpoint
  have hkeeps := Wait.keeps_pollAll earlier (wait'.undergo m)
  have hfollows := (Wait.follows_undergo wait' m).trans (Wait.follows_pollAll earlier _)
  rw [← arrivals_concat] at hinformed'
  have hlets := ((h.letsGo_play hwait').undergo m).pollAll earlier
  refine demands_of_fails (hpolls s (by simp)) (hlets.ownFired_eq_false hopen') hinformed'
    (hfollows.request.trans hrequest) ?_ ?_ (Wait.fails_of_poll hopen' hlast)
  · rw [hkeeps.deadline, (Wait.undergo_frame _ m).2, hdeadline]
  · intro stream hstream hends
    obtain ⟨struck, hstruck, hstruck'⟩ := hkeeps.closed stream hstream hends
    obtain ⟨stream', hstream', hwas⟩ := Wait.closed_undergo hstruck hstruck'
    have hlistens := hinformed.stage_of_stream hstream'
    constructor
    · rcases hwas with hwas | rfl
      · obtain ⟨before, after, rfl, hlistened⟩ := hclosed stream' hstream' hwas
        exact ⟨before, after ++ [m], by simp, hlistened⟩
      · exact ⟨moves, [], rfl, by rw [stage?_eq_some hwait', hlistens]⟩
    · rintro accounts rfl
      rcases hlisted' with rfl | ⟨hstage, -⟩
      · obtain ⟨j, hj⟩ := hlists accounts rfl
        exact ⟨j, hj.append [m]⟩
      · rw [Wait.stage_undergo, hlistens] at hstage
        cases hstage

end Demands

end World

end ComputeNet
