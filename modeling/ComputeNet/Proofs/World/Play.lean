import ComputeNet.Proofs.World.Turns

/-!
# Moves of worlds

`run` settles a world after each happening. `play` lets happenings and settlings follow each other
in any order, so that several things can happen before the waits are polled again. A wait keeps
the number under which it was started. Every move strikes all waits in the same way (`undergo`)
and then polls them some times in the surroundings that it leaves behind (`waitAt?_act`).
-/

namespace ComputeNet

/-- What moves a world on: something happens, or all background work goes as far as it gets. -/
inductive Move where
  | happen (h : World.Happening)
  | settle

/-- The account that a move stores. -/
def Move.stored? : Move → Option RawAccount
  | .happen (.account a) => some a
  | _ => none

/-- The tokens of callers that a move fires. -/
def Move.fires : Move → List Token
  | .happen (.fire token) => [token]
  | _ => []

/-- How far a wait has got, whatever it waits for. It is listing until its listing is answered, and
subscribing until its stream is open. -/
inductive Stage where
  | listing
  | subscribing
  | listening
  | finished
deriving DecidableEq

namespace Wait

variable {α σ : Type} [Enumeration σ] [DecidableEq σ]

def stage (w : Wait α σ) : Stage :=
  match w.phase with
  | .starting => .listing
  | .listing _ => .listing
  | .subscribing .. => .subscribing
  | .listening _ => .listening
  | .finished .. => .finished

omit [Enumeration σ] [DecidableEq σ] in
@[simp] theorem stage_letGo (w : Wait α σ) : w.letGo.stage = w.stage := by
  rw [stage, stage, letGo_phase]

/-- The wait has an open stream that lets the data through. -/
def hears (w : Wait α σ) (data : Bytes) : Bool :=
  w.stream.any fun s => !s.closed && Filter.allAccept s.filters data

/-- What a move does to the wait before it is polled again. -/
def undergo (w : Wait α σ) : Move → Wait α σ
  | .happen (.account a) => w.notice a.address a.data
  | .happen .streamsClose => w.closeStream
  | _ => w

/-- Polls the wait in some surroundings, one after the other. Once it is over it has fired its own
token. -/
def pollAll (polls : List Surroundings) (w : Wait α σ) : Wait α σ :=
  polls.foldl (fun w s => w.turn s) w

end Wait

namespace World

def act (w : World) : Move → World
  | .happen h => w.after h
  | .settle => w.settle

def play (w : World) (moves : List Move) : World := moves.foldl act w

@[simp] theorem play_nil (w : World) : w.play [] = w := rfl

@[simp] theorem play_cons (w : World) (m : Move) (moves : List Move) :
    w.play (m :: moves) = (w.act m).play moves := rfl

theorem play_append (w : World) (moves moves' : List Move) :
    w.play (moves ++ moves') = (w.play moves).play moves' := List.foldl_append

theorem play_concat (w : World) (moves : List Move) (m : Move) :
    w.play (moves ++ [m]) = (w.play moves).act m := play_append w moves [m]

/-- A run is a play that settles after each happening. -/
theorem run_eq_play (w : World) (hs : List Happening) :
    w.run hs = w.play (hs.flatMap fun h => [.happen h, .settle]) := by
  induction hs generalizing w with
  | nil => rfl
  | cons h hs ih => exact ih (w.step h)

/-- The wait that was started as the `n`-th, counted from 0. -/
def waitAt? (w : World) (n : Nat) : Option EntityWait := w.waits.reverse[n]?.map (·.wait)

def stage? (w : World) (n : Nat) : Option Stage := (w.waitAt? n).map (·.wait.stage)

/-- How the `n`-th wait has ended, if it is over. -/
def outcomeAt? (w : World) (n : Nat) :
    Option ((kind : EntityKind) × Except ClientError (Found kind.Record)) :=
  (w.waitAt? n).bind fun e => e.wait.outcome?.map fun outcome => ⟨e.kind, outcome⟩

/-- A wait may be polled in these surroundings in the course of a move that leads to the world. -/
structure Surrounds (w : World) (s : Surroundings) : Prop where
  endpoint : s.endpoint = w.endpoint
  canSubscribe : s.canSubscribe = w.client.canSubscribe
  fired : s.fired = w.fired
  now_le : s.now ≤ w.now

theorem surrounds_surroundings (w : World) : w.Surrounds w.surroundings :=
  ⟨rfl, rfl, rfl, Nat.le_refl _⟩

theorem waitAt?_mapWaits (w : World) (n : Nat)
    (f : {α σ : Type} → [Enumeration σ] → [DecidableEq σ] → Wait α σ → Wait α σ) :
    (w.mapWaits f).waitAt? n = (w.waitAt? n).map (·.modify f) := by
  simp only [waitAt?, mapWaits, ← List.map_reverse, List.getElem?_map, Option.map_map]
  rfl

@[simp] theorem waitAt?_mapFeeds (w : World) (f : Feed → Feed) (n : Nat) :
    (w.mapFeeds f).waitAt? n = w.waitAt? n := rfl

theorem waitAt?_settle (w : World) (n : Nat) :
    w.settle.waitAt? n = (w.waitAt? n).map (·.modify (·.turn w.surroundings)) := by
  rw [settle_eq, waitAt?_mapFeeds, waitAt?_mapWaits]

theorem getElem?_reverse_cons {α : Type} (a : α) (items : List α) (n : Nat) :
    (a :: items).reverse[n]? = if n = items.length then some a else items.reverse[n]? := by
  rcases Nat.lt_trichotomy n items.length with hlt | rfl | hlt
  · rw [List.reverse_cons, List.getElem?_append_left (by rwa [List.length_reverse]),
      if_neg (Nat.ne_of_lt hlt)]
  · simp
  · rw [if_neg (Nat.ne_of_gt hlt), List.getElem?_eq_none, List.getElem?_eq_none]
    · rw [List.length_reverse]
      exact Nat.le_of_lt hlt
    · rw [List.length_reverse, List.length_cons]
      exact hlt

/-- A wait that is started later does not touch the numbers of the earlier ones. -/
theorem waitAt?_cons {w : World} {n : Nat} {e : EntityWait} (h : w.waitAt? n = some e)
    (entry : WaitEntry) : { w with waits := entry :: w.waits }.waitAt? n = some e := by
  obtain ⟨found, hfound, rfl⟩ := Option.map_eq_some_iff.mp h
  obtain ⟨hlt, -⟩ := List.getElem?_eq_some_iff.mp hfound
  simp only [waitAt?, List.reverse_cons, List.getElem?_append_left hlt, hfound, Option.map_some]

theorem waitAt?_startWait (w : World) (id : String) (kind : EntityKind)
    (request : WaitRequest kind.Record kind.Status) (timeout : Option UInt64) :
    (w.startWait id kind request timeout).waitAt? w.waits.length =
      some ⟨kind, (w.client.wait w.now request timeout).turn w.surroundings⟩ := by
  rw [startWait, waitAt?_settle]
  simp [waitAt?, EntityWait.modify, surroundings]

/-- A wait that starts changes nothing around it. -/
theorem surroundings_startWait (w : World) (id : String) {kind : EntityKind}
    (request : WaitRequest kind.Record kind.Status) (timeout : Option UInt64) :
    (w.startWait id kind request timeout).surroundings = w.surroundings := by
  rw [startWait, settle_surroundings]
  rfl

theorem now_startWait (w : World) (id : String) {kind : EntityKind}
    (request : WaitRequest kind.Record kind.Status) (timeout : Option UInt64) :
    (w.startWait id kind request timeout).now = w.now := by
  rw [startWait, settle_now]

theorem client_startWait (w : World) (id : String) {kind : EntityKind}
    (request : WaitRequest kind.Record kind.Status) (timeout : Option UInt64) :
    (w.startWait id kind request timeout).client = w.client := by
  rw [startWait, settle_client]

theorem endpoint_startWait (w : World) (id : String) {kind : EntityKind}
    (request : WaitRequest kind.Record kind.Status) (timeout : Option UInt64) :
    (w.startWait id kind request timeout).endpoint = w.endpoint := by
  rw [startWait, settle_endpoint]

/-- While time passes, nothing but the clock and the polls of the waits goes on. -/
theorem runUntil_frame (target : Nat) (w : World) :
    (w.runUntil target).endpoint = w.endpoint ∧ (w.runUntil target).client = w.client ∧
      (w.runUntil target).fired = w.fired ∧ w.now ≤ (w.runUntil target).now := by
  fun_induction runUntil target w with
  | case1 w t ht h ih =>
    simp only [settle_endpoint, settle_client, settle_fired, settle_now] at ih
    exact ⟨ih.1, ih.2.1, ih.2.2.1, Nat.le_trans (Nat.le_of_lt h.1) ih.2.2.2⟩
  | case2 w t ht h =>
    rw [settle_endpoint, settle_client, settle_fired, settle_now]
    exact ⟨rfl, rfl, rfl, Nat.le_max_left ..⟩
  | case3 w ht =>
    rw [settle_endpoint, settle_client, settle_fired, settle_now]
    exact ⟨rfl, rfl, rfl, Nat.le_max_left ..⟩

/-- The clock moves on and all background work goes as far as it gets: one poll for each wait. -/
private theorem waitAt?_settleAt (w : World) (later : Nat) (n : Nat) :
    ({ w with now := later } : World).settle.waitAt? n =
      (w.waitAt? n).map (·.modify (·.pollAll [{ w with now := later }.surroundings])) :=
  waitAt?_settle { w with now := later } n

/-- Some polls that go on from a moment up to a world take place in surroundings of that world, and
no clock goes back. -/
structure Spans (start : Nat) (w : World) (polls : List Surroundings) : Prop where
  le : start ≤ w.now
  surrounds : ∀ s ∈ polls, w.Surrounds s
  sorted : (start :: polls.map (·.now)).Pairwise (· ≤ ·)

/-- A single poll, at the end. -/
theorem spans_settle {start : Nat} {w : World} (h : start ≤ w.now) :
    Spans start w.settle [w.surroundings] := by
  rw [← settle_surroundings]
  rw [← settle_now] at h
  refine ⟨h, ?_, List.pairwise_pair.mpr h⟩
  intro s hs
  rw [List.mem_singleton.mp hs]
  exact w.settle.surrounds_surroundings

theorem spans_nil {start : Nat} {w : World} (h : start ≤ w.now) : Spans start w [] :=
  ⟨h, by simp, List.pairwise_singleton _ _⟩

theorem Spans.cons {start : Nat} {w : World} {s : Surroundings} {polls : List Surroundings}
    (h : Spans s.now w polls) (hs : w.Surrounds s) (hstart : start ≤ s.now) :
    Spans start w (s :: polls) := by
  refine ⟨Nat.le_trans hstart h.le, List.forall_mem_cons.mpr ⟨hs, h.surrounds⟩,
    List.pairwise_cons.mpr ⟨?_, h.sorted⟩⟩
  have hlater := (List.pairwise_cons.mp h.sorted).1
  exact List.forall_mem_cons.mpr ⟨hstart, fun t ht => Nat.le_trans hstart (hlater t ht)⟩

/-- While time passes, every wait is polled at the same moments, one after the other. -/
private theorem waitAt?_runUntil (target : Nat) (w : World) :
    ∃ polls, Spans w.now (w.runUntil target) polls ∧
      ∀ n, (w.runUntil target).waitAt? n = (w.waitAt? n).map (·.modify (·.pollAll polls)) := by
  fun_induction runUntil target w with
  | case1 w t ht h ih =>
    obtain ⟨polls, hpolls, hwaits⟩ := ih
    obtain ⟨hendpoint, hclient, hfired, hnow⟩ := runUntil_frame target { w with now := t }.settle
    rw [settle_now] at hpolls hnow
    refine ⟨{ w with now := t }.surroundings :: polls, ?_, ?_⟩
    · refine Spans.cons hpolls ⟨?_, ?_, ?_, hnow⟩ (Nat.le_of_lt h.1)
      · rw [hendpoint, settle_endpoint]
        rfl
      · rw [hclient, settle_client]
        rfl
      · rw [hfired, settle_fired]
        rfl
    · intro n
      rw [hwaits n, waitAt?_settleAt, Option.map_map]
      rfl
  | case2 w t ht h =>
    exact ⟨_, spans_settle (Nat.le_max_left ..), fun n => waitAt?_settleAt w _ n⟩
  | case3 w ht => exact ⟨_, spans_settle (Nat.le_max_left ..), fun n => waitAt?_settleAt w _ n⟩

/-- A move strikes every wait in the same way and then polls it some times, from the moment before
it up to the world that it leaves behind. -/
theorem waitAt?_act_spans (w : World) (m : Move) :
    ∃ polls, Spans w.now (w.act m) polls ∧ ∀ n e, w.waitAt? n = some e →
      (w.act m).waitAt? n = some (e.modify fun wait => (wait.undergo m).pollAll polls) := by
  have unpolled {w' : World} (h : w'.waits = w.waits) (n : Nat) (e : EntityWait)
      (he : w.waitAt? n = some e) : w'.waitAt? n = some e := by
    rw [waitAt?, h]
    exact he
  have passed (target : Nat) (w' : World) (h : w'.waits = w.waits) (hnow : w'.now = w.now) :
      ∃ polls, Spans w.now (w'.runUntil target) polls ∧ ∀ n e, w.waitAt? n = some e →
        (w'.runUntil target).waitAt? n = some (e.modify (·.pollAll polls)) := by
    obtain ⟨polls, hpolls, hwaits⟩ := waitAt?_runUntil target w'
    refine ⟨polls, hnow ▸ hpolls, ?_⟩
    intro n e he
    rw [hwaits n, unpolled h n e he]
    rfl
  have settled (w' : World) (hnow : w'.now = w.now)
      (h : ∀ n e, w.waitAt? n = some e → w'.waitAt? n = some e) :
      ∃ polls, Spans w.now w'.settle polls ∧ ∀ n e, w.waitAt? n = some e →
        w'.settle.waitAt? n = some (e.modify (·.pollAll polls)) := by
    refine ⟨[w'.surroundings], spans_settle (Nat.le_of_eq hnow.symm), ?_⟩
    intro n e he
    rw [waitAt?_settle, h n e he]
    rfl
  cases m with
  | settle => exact settled w rfl fun _ _ he => he
  | happen h =>
    cases h with
    | account a =>
      refine ⟨[], spans_nil (Nat.le_refl _), ?_⟩
      intro n e he
      exact (waitAt?_mapWaits w n _).trans (by rw [he]; rfl)
    | streamsClose =>
      refine ⟨[], spans_nil (Nat.le_refl _), ?_⟩
      intro n e he
      exact (waitAt?_mapWaits w n _).trans (by rw [he]; rfl)
    | time ms => exact passed _ w rfl rfl
    | list kind status => exact passed _ w rfl rfl
    | history scope options => exact passed _ _ rfl rfl
    | wait id kind request timeout => exact settled _ rfl fun n e he => waitAt?_cons he _
    | subscribe id scope asks failsAt =>
      simp only [act, after, subscribe]
      split
      · exact ⟨[], spans_nil (Nat.le_refl _), fun n e he => he⟩
      · cases w.endpoint.serve .logsSubscribe with
        | error e => exact ⟨[], spans_nil (Nat.le_refl _), fun n e he => he⟩
        | ok => exact settled _ rfl fun n e he => he
    | _ => exact ⟨[], spans_nil (Nat.le_refl _), unpolled rfl⟩

/-- A move strikes every wait in the same way and then polls it some times in the surroundings that
it leaves behind. -/
theorem waitAt?_act (w : World) (m : Move) :
    ∃ polls : List Surroundings, (∀ s ∈ polls, (w.act m).Surrounds s) ∧
      ∀ n e, w.waitAt? n = some e →
        (w.act m).waitAt? n = some (e.modify fun wait => (wait.undergo m).pollAll polls) := by
  obtain ⟨polls, hpolls, hwaits⟩ := waitAt?_act_spans w m
  exact ⟨polls, hpolls.surrounds, hwaits⟩

/-! ## What moves leave alone -/

/-- The endpoint after a move. What goes on in the background does not touch it. -/
def endpointAfter (w : World) : Move → Endpoint
  | .settle | .happen (.time _) | .happen (.list ..) | .happen (.wait ..)
  | .happen (.subscribe ..) => w.endpoint
  | .happen (.history scope options) =>
    { w.endpoint with fetches := w.endpoint.fetches +
        (w.client.history (source w.endpoint) scope options).fetched.length }
  | .happen h => (w.after h).endpoint

theorem frame_act (w : World) (m : Move) : (w.act m).client = w.client ∧
    (w.act m).endpoint = w.endpointAfter m ∧ (w.act m).fired = m.fires ++ w.fired := by
  have passed (target : Nat) (w' : World) : (w'.runUntil target).client = w'.client ∧
      (w'.runUntil target).endpoint = w'.endpoint ∧ (w'.runUntil target).fired = w'.fired := by
    obtain ⟨hendpoint, hclient, hfired, -⟩ := runUntil_frame target w'
    exact ⟨hclient, hendpoint, hfired⟩
  have settled (w' : World) : w'.settle.client = w'.client ∧ w'.settle.endpoint = w'.endpoint ∧
      w'.settle.fired = w'.fired := ⟨settle_client w', settle_endpoint w', settle_fired w'⟩
  cases m with
  | settle => exact settled w
  | happen h =>
    cases h with
    | time ms => exact passed _ w
    | list kind status => exact passed _ w
    | history scope options => exact passed _ _
    | wait id kind request timeout => exact settled _
    | subscribe id scope asks failsAt =>
      simp only [act, after, subscribe]
      split
      · exact ⟨rfl, rfl, rfl⟩
      · cases w.endpoint.serve .logsSubscribe with
        | error e => exact ⟨rfl, rfl, rfl⟩
        | ok => exact settled _
    | _ => exact ⟨rfl, rfl, rfl⟩

theorem client_act (w : World) (m : Move) : (w.act m).client = w.client := (w.frame_act m).1

theorem endpoint_act (w : World) (m : Move) : (w.act m).endpoint = w.endpointAfter m :=
  (w.frame_act m).2.1

theorem fired_act (w : World) (m : Move) : (w.act m).fired = m.fires ++ w.fired :=
  (w.frame_act m).2.2

theorem client_play (w : World) (moves : List Move) : (w.play moves).client = w.client := by
  induction moves generalizing w with
  | nil => rfl
  | cons m moves ih => exact (ih (w.act m)).trans (w.client_act m)

end World

end ComputeNet
