import ComputeNet.Proofs.Status.Unbound
import ComputeNet.Proofs.Wait.Answer
import ComputeNet.Proofs.Wait.Ends

/-!
# What a wait records has passed its filters

As long as the endpoint heeds filters (`World.Sifts`), the stream of a wait lets nothing through but
what the filters of the wait accept (`Wait.Strict`). So all that a wait records, from its listing or
from its stream, was read from data that passes its filters (`exists_of_mem_recorded`). A task
without a session is recorded only if its stray byte is the tag of the status that is waited for
(`watched_of_unbound`).
-/

namespace ComputeNet

namespace Found

variable {α : Type}

/-- The records in the order of some keys are records that were found. -/
private theorem exists_mem_of_mem_inOrder {found : Found α} {keys : List EntityKey} {a : α}
    (h : a ∈ found.inOrder keys) : ∃ key, (key, a) ∈ found := by
  induction keys generalizing found with
  | nil => cases h
  | cons key keys ih =>
    rw [inOrder] at h
    split at h
    next b hlookup =>
      rcases List.mem_cons.mp h with rfl | h
      · obtain ⟨before, after, rfl, -⟩ := List.lookup_eq_some_iff.mp hlookup
        exact ⟨key, by simp⟩
      · obtain ⟨other, hother⟩ := ih h
        exact ⟨other, List.mem_of_mem_filter hother⟩
    · exact ih h

end Found

namespace Wait

variable {α σ : Type}

/-- The records that a wait has of its targets: what it has found so far or has ended with. -/
def recorded (w : Wait α σ) : Found α :=
  match w.phase with
  | .subscribing _ _ found => found
  | .listening found => found
  | .finished (.ok found) _ => found
  | _ => []

variable [Enumeration σ] [DecidableEq σ] {w : Wait α σ} {s : Surroundings}

/-- What a wait has recorded is what it saw in its listing or in the changes since. -/
theorem Informed.exists_of_mem_recorded {listed : Option (List RawAccount)}
    {arrived : List (Address × Bytes)} (h : w.Informed listed arrived) {key : EntityKey} {a : α}
    (hmem : (key, a) ∈ w.recorded) :
    ∃ accounts, listed = some accounts ∧ ∃ c ∈ accounts.map RawAccount.change ++ arrived,
      w.request.watch.observe w.request.status c.1 c.2 = some (key, a) := by
  obtain ⟨request, deadline, phase, stream, opened, ownFired⟩ := w
  have hseen {changes : List (Address × Bytes)} (h : (key, a) ∈ request.foundIn changes) :
      ∃ c ∈ changes, request.watch.observe request.status c.1 c.2 = some (key, a) :=
    (request.mem_sightings_iff.mp (mem_of_latest (request.mem_foundIn_iff.mp h))).2
  cases h with
  | subscribing _ _ hfound _ =>
    dsimp only [recorded] at hfound hmem
    rw [hfound] at hmem
    obtain ⟨c, hc, hobserve⟩ := hseen hmem
    exact ⟨_, rfl, c, List.mem_append_left _ hc, hobserve⟩
  | listening _ hfound _ harrived =>
    dsimp only [recorded] at hfound hmem
    rw [hfound] at hmem
    obtain ⟨c, hc, hobserve⟩ := hseen hmem
    refine ⟨_, rfl, c, ?_, hobserve⟩
    rw [harrived, ← List.append_assoc]
    exact List.mem_append_left _ hc
  | found _ hprefix hfound _ =>
    dsimp only [recorded] at hfound hmem
    rw [hfound] at hmem
    obtain ⟨c, hc, hobserve⟩ := hseen hmem
    refine ⟨_, rfl, c, ?_, hobserve⟩
    exact ((List.prefix_append_right_inj _).mpr hprefix).subset hc
  | _ => cases hmem

/-! ## Strict streams -/

/-- The stream of the wait, and the one that it is opening, go by all the filters of the wait. -/
structure Strict (w : Wait α σ) : Prop where
  opening : ∀ opensAt filters found, w.phase = .subscribing opensAt filters found →
    filters = w.request.filters
  streaming : ∀ stream, w.stream = some stream → stream.filters = w.request.filters

theorem Strict.finish (w : Wait α σ) (s : Surroundings) (outcome : Except ClientError (Found α)) :
    (w.finish s outcome).Strict where
  opening := by rintro _ _ _ ⟨⟩
  streaming := by rintro _ ⟨⟩

private theorem strict_begin (h : w.Strict) (s : Surroundings) : (w.begin s).Strict := by
  rw [begin]
  split
  · split
    · exact .finish ..
    · split
      · exact .finish ..
      · refine ⟨?_, h.streaming⟩
        rintro _ _ _ ⟨⟩
  · exact h

private theorem strict_heed (h : w.Strict) (s : Surroundings) : (w.heed s).Strict := by
  rw [heed]
  split
  · exact .finish ..
  · exact h

private theorem strict_list (h : w.Strict) (hsifts : s.endpoint.faults.ignoreFilters = false) :
    (w.list s).Strict := by
  rw [list]
  split
  · split
    · exact h
    · split
      · exact .finish ..
      · dsimp only
        split
        · exact .finish ..
        · split
          · exact .finish ..
          · refine ⟨?_, h.streaming⟩
            rintro opensAt filters found ⟨⟩
            rw [Endpoint.effective, hsifts]
            rfl
  · exact h

private theorem strict_subscribe (h : w.Strict) (s : Surroundings) : (w.subscribe s).Strict := by
  rw [subscribe]
  split
  next opensAt filters found hphase =>
    split
    · exact h
    · constructor
      · rintro _ _ _ ⟨⟩
      · rintro stream ⟨⟩
        exact h.opening opensAt filters found hphase
  · exact h

private theorem strict_listen (h : w.Strict) (s : Surroundings) : (w.listen s).Strict := by
  rw [listen]
  split
  next found stream hphase hstream =>
    dsimp only
    split
    · exact .finish ..
    · split
      · exact .finish ..
      · constructor
        · rintro _ _ _ ⟨⟩
        · rintro stream' ⟨⟩
          exact h.streaming stream hstream
  · exact h

private theorem strict_expire (h : w.Strict) (s : Surroundings) : (w.expire s).Strict := by
  rw [expire]
  split
  · exact .finish ..
  · exact h

private theorem strict_poll (h : w.Strict) (hsifts : s.endpoint.faults.ignoreFilters = false) :
    (w.poll s).Strict := by
  have hlist := strict_list (strict_heed (strict_begin h s) s) hsifts
  exact strict_expire (strict_listen (strict_subscribe hlist s) s) s

theorem strict_turn (h : w.Strict) (hsifts : s.endpoint.faults.ignoreFilters = false) :
    (w.turn s).Strict := by
  have hpoll := strict_poll h hsifts
  refine ⟨?_, ?_⟩
  · rw [turn, letGo_phase, letGo_request]
    exact hpoll.opening
  · rw [turn, letGo_stream, letGo_request]
    exact hpoll.streaming

private theorem strict_pollAll (h : w.Strict) (polls : List Surroundings)
    (hsifts : ∀ s ∈ polls, s.endpoint.faults.ignoreFilters = false) : (w.pollAll polls).Strict := by
  induction polls generalizing w with
  | nil => exact h
  | cons s polls ih =>
    have hturn := strict_turn h (hsifts s List.mem_cons_self)
    exact ih hturn fun t ht => hsifts t (List.mem_cons_of_mem s ht)

private theorem strict_notice (h : w.Strict) (address : Address) (data : Bytes) :
    (w.notice address data).Strict := by
  refine ⟨h.opening, ?_⟩
  intro stream' hstream'
  obtain ⟨stream, hstream, rfl⟩ := Option.map_eq_some_iff.mp hstream'
  rw [AccountStream.push]
  split <;> exact h.streaming stream hstream

private theorem strict_closeStream (h : w.Strict) : w.closeStream.Strict := by
  refine ⟨h.opening, ?_⟩
  intro stream' hstream'
  obtain ⟨stream, hstream, rfl⟩ := Option.map_eq_some_iff.mp hstream'
  exact h.streaming stream hstream

private theorem strict_undergo (h : w.Strict) (m : Move) : (w.undergo m).Strict := by
  cases m with
  | settle => exact h
  | happen happening =>
    cases happening with
    | account a => exact strict_notice h a.address a.data
    | streamsClose => exact strict_closeStream h
    | _ => exact h

end Wait

namespace World

/-- The endpoint heeds filters before and after each of the moves. -/
def Sifts (w : World) (moves : List Move) : Prop :=
  ∀ before, before <+: moves → (w.play before).endpoint.faults.ignoreFilters = false

variable {kind : EntityKind} {w : World} {n : Nat} {wait : Wait kind.Record kind.Status}
  {moves : List Move}

theorem Sifts.of_prefix (h : w.Sifts moves) {before : List Move} (hbefore : before <+: moves) :
    w.Sifts before :=
  fun earlier hearlier => h earlier (hearlier.trans hbefore)

private theorem strict_play (h : w.Sifts moves) (hwait : w.waitAt? n = some ⟨kind, wait⟩)
    (hstrict : wait.Strict) :
    ∃ wait', (w.play moves).waitAt? n = some ⟨kind, wait'⟩ ∧ wait'.Strict := by
  induction moves generalizing w wait with
  | nil => exact ⟨wait, hwait, hstrict⟩
  | cons m moves ih =>
    obtain ⟨polls, hpolls, hwaits⟩ := waitAt?_act w m
    have hsifts : (w.act m).endpoint.faults.ignoreFilters = false := h [m] ⟨moves, rfl⟩
    have hstrict' := Wait.strict_pollAll (Wait.strict_undergo hstrict m) polls fun s hs => by
      rw [(hpolls s hs).endpoint]
      exact hsifts
    refine ih (fun before hbefore => ?_) (hwaits n _ hwait) hstrict'
    exact h (m :: before) (List.cons_prefix_cons.mpr ⟨rfl, hbefore⟩)

variable {request : WaitRequest kind.Record kind.Status} {timeout : Option UInt64} {id : String}

/-- The stream of a wait goes by all its filters from the beginning on. -/
private theorem strict_play_startWait (h : (w.startWait id kind request timeout).Sifts moves) :
    ∃ wait, ((w.startWait id kind request timeout).play moves).waitAt? w.waits.length =
      some ⟨kind, wait⟩ ∧ wait.Strict := by
  have hsifts : w.endpoint.faults.ignoreFilters = false := by
    rw [← endpoint_startWait w id request timeout]
    exact h [] List.nil_prefix
  have hstart : (w.client.wait w.now request timeout).Strict :=
    ⟨by rintro _ _ _ ⟨⟩, by rintro _ ⟨⟩⟩
  exact strict_play h (waitAt?_startWait w id kind request timeout)
    (Wait.strict_turn hstart hsifts)

/-- Whatever a wait records was read from data that passes its filters. -/
theorem exists_of_mem_recorded (h : (w.startWait id kind request timeout).Sifts moves)
    (hwait : ((w.startWait id kind request timeout).play moves).waitAt? w.waits.length =
      some ⟨kind, wait⟩) {key : EntityKey} {a : kind.Record} (hmem : (key, a) ∈ wait.recorded) :
    ∃ account : RawAccount, Filter.allAccept request.filters account.data = true ∧
      request.watch.observe request.status account.address account.data = some (key, a) := by
  have hbegins := begins_startWait w id request timeout
  obtain ⟨wait', listed, hwait', rfl, hinformed, hlisted⟩ := hbegins.informed_play moves
  cases hwait.symm.trans hwait'
  obtain ⟨accounts, rfl, c, hc, hobserve⟩ := hinformed.exists_of_mem_recorded hmem
  rcases List.mem_append.mp hc with hc | hc
  · obtain ⟨account, haccount, rfl⟩ := List.mem_map.mp hc
    obtain ⟨j, hlists⟩ := hlisted accounts rfl
    obtain ⟨-, hdata⟩ := (Endpoint.mem_listing_iff hlists.listing).mp haccount
    rw [Endpoint.effective, h _ (List.take_prefix j moves)] at hdata
    exact ⟨account, hdata, hobserve⟩
  · obtain ⟨before, account, after, rfl, rfl, e, he, hhears⟩ := exists_of_mem_arrivals hc
    obtain ⟨earlier, hearlier, hstrict⟩ := strict_play_startWait (h.of_prefix ⟨_, rfl⟩)
    obtain ⟨later, -, hlater, hrequest, -, -⟩ := hbegins.informed_play before
    cases he.symm.trans hearlier
    cases hearlier.symm.trans hlater
    obtain ⟨stream, hstream, haccepts⟩ := (Option.any_eq_true ..).mp hhears
    rw [Bool.and_eq_true, hstrict.streaming stream hstream, hrequest] at haccepts
    exact ⟨account, haccepts.2, hobserve⟩

end World

/-! ## Tasks without a session -/

/-- The wait has a record, or has answered with it. -/
def Wait.Tells {α σ : Type} (w : Wait α σ) (a : α) : Prop :=
  (∃ key, (key, a) ∈ w.recorded) ∨ ∃ records, w.records? = some (.ok records) ∧ a ∈ records

private theorem Wait.Tells.exists_mem_recorded {α σ : Type} {w : Wait α σ} {a : α} (h : w.Tells a) :
    ∃ key, (key, a) ∈ w.recorded := by
  rcases h with hmem | ⟨records, hrecords, hmem⟩
  · exact hmem
  · obtain ⟨outcome, houtcome, hmap⟩ := Option.map_eq_some_iff.mp hrecords
    cases outcome with
    | error error => cases hmap
    | ok found =>
      cases hmap
      obtain ⟨time, hphase⟩ := phase_of_outcome? houtcome
      rw [recorded, hphase]
      exact Found.exists_mem_of_mem_inOrder hmem

namespace Task

/-- When a task without a session is watched for a status: it has the status, and its stray byte is
the tag of the status. It passes the filters and is observed, and so it is listed, just then; and a
wait records it or answers with it only then. -/
theorem watched_of_unbound (status : TaskStatus) :
    (∀ (address : Address) (data : Bytes) (t : Task), Account.ofData data = .ok t →
      t.sessionSlotId = none →
      (Filter.allAccept (Task.watch.filters status) data = true ∧
          Task.watch.observe status address data = some (.slot t.taskSlotId, t) ↔
        t.status = status ∧ t.strayByte = Enumeration.tag status)) ∧
    (∀ (e : Endpoint) (listed : List (Address × Task)) (account : RawAccount) (t : Task),
      Client.listByStatus e .task status = .ok listed → account ∈ e.ledger.accounts →
      Account.ofData account.data = .ok t → t.sessionSlotId = none →
      ((account.address, t) ∈ listed ↔ t.status = status ∧
        (e.faults.ignoreFilters = true ∨ t.strayByte = Enumeration.tag status))) ∧
    ∀ (w : World) (id : String) (keyOf : Task → Option EntityKey)
      (request : WaitRequest EntityKind.task.Record EntityKind.task.Status)
      (timeout : Option UInt64) (moves : List Move)
      (wait : Wait EntityKind.task.Record EntityKind.task.Status) (t : Task),
      request.watch = { Task.watch with keyOf } → request.status = status →
      (w.startWait id .task request timeout).Sifts moves →
      ((w.startWait id .task request timeout).play moves).waitAt? w.waits.length =
        some ⟨.task, wait⟩ →
      wait.Tells t → t.sessionSlotId = none →
      t.status = status ∧ t.strayByte = Enumeration.tag status := by
  refine ⟨?_, ?_, ?_⟩
  · intro address data t hdecode hunbound
    rw [allAccept_filters_iff_of_unbound hdecode hunbound, Watch.observe_eq_some_iff, and_comm]
    exact and_congr_left' ⟨fun h => h.2.1, fun h => ⟨hdecode, h, rfl⟩⟩
  · intro e listed account t hlisted haccount hdecode hunbound
    exact mem_listByStatus_iff_of_unbound hlisted haccount hdecode hunbound
  · intro w id keyOf request timeout moves wait t hwatch hrequest hsifts hwait htells hunbound
    obtain ⟨key, hmem⟩ := htells.exists_mem_recorded
    obtain ⟨account, hpasses, hobserve⟩ := World.exists_of_mem_recorded hsifts hwait hmem
    obtain ⟨hdecode, hstatus, -⟩ := Watch.observe_eq_some_iff.mp hobserve
    subst hrequest
    rw [hwatch] at hdecode hstatus
    rw [WaitRequest.filters, hwatch] at hpasses
    exact ⟨hstatus, (allAccept_filters_iff_of_unbound hdecode hunbound _).mp hpasses⟩

/-! ## A new task -/

/-- A task that is ready for model 1, and that no session has taken up. -/
def fresh : Task where
  taskSlotId := 3
  sessionSlotId := none
  status := .ready
  computeNode := none
  taskType := .completion 1
  chainProof := .replicate 32 0
  taskIndex := 0
  maxTaskCost := 100
  maxCallCount := 5
  callCount := 0
  inputCid := none
  outputCid := none
  pendingInputCid := none
  pendingOutputCid := none
  validations := []
  bump := 255

/-- The new task in an account. -/
def freshAccount : RawAccount := ⟨.replicate 32 12, Account.toData fresh, 1⟩

/-- A network with the new task. -/
def freshWorld : World where
  client := { program := .replicate 32 100, network := .replicate 32 101, canSubscribe := true }
  endpoint := { ledger := Ledger.empty.put freshAccount }

/-- Asks for task 3 to be ready. -/
def freshRequest : WaitRequest EntityKind.task.Record EntityKind.task.Status where
  watch := Task.watch
  targets := [.slot 3]
  status := TaskStatus.ready
  mode := .all
  token := none

theorem ofData_freshAccount : Account.ofData freshAccount.data = .ok fresh :=
  Account.ofData_eq_ok_iff.mpr ⟨by decide, List.prefix_refl _⟩

set_option maxRecDepth 10000 in
theorem records?_freshWorld :
    ∃ wait, ((freshWorld.startWait "task" .task freshRequest none).play []).waitAt? 0 =
      some ⟨.task, wait⟩ ∧ wait.records? = some (.ok [fresh]) :=
  ⟨_, rfl, rfl⟩

/-- The new task is listed, and a wait answers with it. -/
theorem not_forall_unwatched_of_unbound :
    (¬ ∀ (e : Endpoint) (status : TaskStatus) (listed : List (Address × Task))
      (account : RawAccount) (t : Task), Client.listByStatus e .task status = .ok listed →
      account ∈ e.ledger.accounts → Account.ofData account.data = .ok t →
      t.sessionSlotId = none → (account.address, t) ∉ listed) ∧
    ¬ ∀ (w : World) (id : String)
      (request : WaitRequest EntityKind.task.Record EntityKind.task.Status)
      (timeout : Option UInt64) (moves : List Move)
      (wait : Wait EntityKind.task.Record EntityKind.task.Status) (t : Task),
      request.watch = Task.watch →
      ((w.startWait id .task request timeout).play moves).waitAt? w.waits.length =
        some ⟨.task, wait⟩ →
      wait.Tells t → t.sessionSlotId ≠ none := by
  constructor
  · intro h
    have hlisted : Client.listByStatus freshWorld.endpoint .task TaskStatus.ready = .ok _ :=
      EntityKind.listByStatus_of_listing rfl
    have hmem := (mem_listByStatus_iff_of_unbound hlisted (List.mem_singleton_self _)
      ofData_freshAccount rfl).mpr ⟨rfl, Or.inr (by decide)⟩
    exact h _ _ _ freshAccount fresh hlisted (List.mem_singleton_self _) ofData_freshAccount rfl
      hmem
  · intro h
    obtain ⟨wait, hwait, hrecords⟩ := records?_freshWorld
    exact h freshWorld "task" freshRequest none [] wait fresh rfl hwait
      (Or.inr ⟨_, hrecords, List.mem_singleton_self _⟩) rfl

/-- The new task is listed as ready, and its stray byte is to blame for the answer of the wait. -/
theorem watched_of_unbound_fresh :
    (∀ listed, Client.listByStatus freshWorld.endpoint .task TaskStatus.ready = .ok listed →
      (freshAccount.address, fresh) ∈ listed) ∧
    fresh.status = .ready ∧ fresh.strayByte = Enumeration.tag TaskStatus.ready := by
  obtain ⟨-, hlisting, hwaits⟩ := watched_of_unbound .ready
  constructor
  · intro listed hlisted
    exact (hlisting _ listed freshAccount fresh hlisted (List.mem_singleton_self _)
      ofData_freshAccount rfl).mpr ⟨rfl, Or.inr (by decide)⟩
  · obtain ⟨wait, hwait, hrecords⟩ := records?_freshWorld
    refine hwaits freshWorld "task" _ freshRequest none [] wait fresh rfl rfl ?_ hwait
      (Or.inr ⟨_, hrecords, List.mem_singleton_self _⟩) rfl
    intro before hbefore
    rw [List.prefix_nil.mp hbefore, World.play_nil, World.endpoint_startWait]
    rfl

end Task

end ComputeNet
