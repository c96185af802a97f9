import ComputeNet.Proofs.Wait.Failures
import ComputeNet.Proofs.Wait.Timers
import ComputeNet.Proofs.World.Clock
import ComputeNet.Proofs.World.Streams

/-!
# Deadlines

Whatever a wait is at, its deadline ends it: the clock never passes the deadline of a wait that goes
on, and none ends later (`Scheduled`). A wait that runs out of time does so at its deadline and not
before, and what it had observed by then is not enough (`keepsDeadline_startWait`).
-/

namespace ComputeNet

namespace Wait

variable {α σ : Type} {w : Wait α σ} {deadline : Option Nat} {endsAt now : Nat}

/-- The wait has begun. While it goes on, its timers lie ahead, and so does the end of its listing,
which is fixed; when it is over, it was so by its deadline. -/
structure Scheduled (w : Wait α σ) (deadline : Option Nat) (endsAt now : Nat) : Prop where
  begun : w.phase ≠ .starting
  deadline_eq : w.deadline = deadline
  lists : ∀ time, w.listsUntil? = some time → time = endsAt
  ahead : ∀ time ∈ w.timers, now < time
  ended : ∀ ended, w.endedAt? = some ended → ∀ time, deadline = some time → ended ≤ time

theorem Scheduled.undergo (h : w.Scheduled deadline endsAt now) (m : Move) :
    (w.undergo m).Scheduled deadline endsAt now := by
  obtain ⟨hphase, hdeadline⟩ := w.undergo_frame m
  obtain ⟨hbegun, hdeadline', hlists, hahead, hended⟩ := h
  rw [listsUntil?, ← hphase, ← listsUntil?] at hlists
  rw [endedAt?, ← hphase, ← endedAt?] at hended
  refine ⟨hphase ▸ hbegun, hdeadline.trans hdeadline', hlists, ?_, hended⟩
  rwa [timers, hphase, hdeadline, ← timers]

variable [Enumeration σ] [DecidableEq σ]

/-- A poll ends a wait at the time of the poll, if at all. -/
private theorem endedAt?_poll (w : Wait α σ) (s : Surroundings) :
    (w.poll s).endedAt? = w.endedAt? ∨ (w.poll s).endedAt? = some s.now := by
  rcases poll_cases w s with ⟨hself, -⟩ | ⟨-, -, hfinish⟩
  · rw [hself]
    exact (works_work s w).ended
  · rw [hfinish]
    exact Or.inr rfl

theorem scheduled_poll {s : Surroundings} (hdeadline : w.deadline = deadline)
    (hlists : ∀ time, (w.begin s).listsUntil? = some time → time = endsAt)
    (hdue : ∀ time ∈ w.timers, s.now ≤ time)
    (hended : ∀ ended, w.endedAt? = some ended → ∀ time, deadline = some time → ended ≤ time) :
    (w.poll s).Scheduled deadline endsAt s.now where
  begun := (rests_poll w s).begun
  deadline_eq := (keeps_poll s w).deadline.trans hdeadline
  lists := by
    intro time htime
    refine hlists time ((works_after_begin s w).lists (phase_begin_ne_starting w s) time ?_)
    exact listsUntil?_of_poll htime
  ahead := (rests_poll w s).timers
  ended := by
    intro ended hend time htime
    rcases endedAt?_poll w s with hsame | hnow
    · exact hended ended (hsame ▸ hend) time htime
    · cases hopen : w.outcome? with
      | some outcome =>
        rw [poll_eq_self hopen] at hend
        exact hended ended hend time htime
      | none =>
        cases hend.symm.trans hnow
        exact hdue time (mem_timers_iff.mpr ⟨hopen, Or.inr (Or.inr (hdeadline.trans htime))⟩)

omit [Enumeration σ] [DecidableEq σ] in
theorem Scheduled.letGo (h : w.Scheduled deadline endsAt now) :
    w.letGo.Scheduled deadline endsAt now := by
  rw [Wait.letGo]
  split
  · exact ⟨h.begun, h.deadline_eq, h.lists, h.ahead, h.ended⟩
  · exact h

/-- A wait that is polled no later than its timers say keeps to its deadline. -/
theorem Scheduled.turn (h : w.Scheduled deadline endsAt now) {s : Surroundings}
    (hdue : ∀ time ∈ w.timers, s.now ≤ time) : (w.turn s).Scheduled deadline endsAt s.now := by
  refine (scheduled_poll h.deadline_eq ?_ hdue h.ended).letGo
  rw [begin_eq_self_of_begun h.begun]
  exact h.lists

/-! ## Running out of time -/

variable {listed : Option (List RawAccount)} {arrived : List (Address × Bytes)} {s : Surroundings}

/-- A wait that goes on with nothing left to look at has not observed enough: its listing goes on
and it has observed nothing, or what the listing and the changes since have shown is not enough. -/
private theorem Informed.not_enough_of_open (h : w.Informed listed arrived)
    (hopen : w.outcome? = none) (hbegun : w.phase ≠ .starting)
    (hquiet : w.stage = .listening → ∀ stream, w.stream = some stream → stream.pending = []) :
    (arrived = [] ∧ ∃ endsAt, w.listsUntil? = some endsAt) ∨
      ∃ accounts, listed = some accounts ∧
        ¬ w.request.Enough (w.request.sightings (accounts.map RawAccount.change ++ arrived)) := by
  obtain ⟨request, deadline, phase, stream, opened, ownFired⟩ := w
  cases h with
  | starting => exact absurd rfl hbegun
  | listing endsAt => exact Or.inl ⟨rfl, endsAt, rfl⟩
  | @subscribing _ _ _ accounts hfilters hfound hmore =>
    refine Or.inr ⟨accounts, rfl, ?_⟩
    rw [← WaitRequest.isComplete_foundIn_iff, List.append_nil, ← hfound, hmore]
    exact Bool.false_ne_true
  | @listening stream _ accounts seen _ hfilters hfound hmore harrived =>
    refine Or.inr ⟨accounts, rfl, ?_⟩
    rw [harrived, hquiet rfl stream rfl, List.append_nil, ← WaitRequest.isComplete_foundIn_iff,
      ← hfound, hmore]
    exact Bool.false_ne_true
  | failed | found => cases hopen

/-- A poll with which a wait runs out of time finds its deadline come, and what it has observed not
enough. -/
theorem Informed.timeout_of_poll (h : w.Informed listed arrived) (hopen : w.outcome? = none)
    {expected : Nat} {status : String}
    (hend : (w.poll s).outcome? = some (.error (.timeout expected status))) :
    (∃ time, w.deadline = some time ∧ time ≤ s.now) ∧ (w.poll s).endedAt? = some s.now ∧
      ((arrived = [] ∧ ∃ endsAt, (w.begin s).listsUntil? = some endsAt ∧ s.now < endsAt) ∨
        ∃ accounts, (listed = some accounts ∨ w.stage = .listing ∧ (w.work s).stage ≠ .listing ∧
            s.endpoint.listing w.request.filters = .ok accounts) ∧
          ¬ w.request.Enough
            (w.request.sightings (accounts.map RawAccount.change ++ arrived))) := by
  rcases poll_cases w s with ⟨hself, -⟩ | ⟨hopen', ⟨time, htime, hdue⟩, hfinish⟩
  · rw [hself] at hend
    have htimedOut := (works_work s w).timedOut (isTimedOut_of_outcome? hend)
    rw [isTimedOut] at htimedOut
    split at htimedOut
    next hphase =>
      rw [outcome?, hphase] at hopen
      cases hopen
    · cases htimedOut
  · rw [(keeps_work s w).deadline] at htime
    refine ⟨⟨time, htime, hdue⟩, by rw [hfinish]; rfl, ?_⟩
    obtain ⟨listed', hinformed, hlisted⟩ := informed_work h s
    have hbegun := (works_after_begin s w).begun (phase_begin_ne_starting w s)
    have hquiet : (w.work s).stage = .listening →
        ∀ stream, (w.work s).stream = some stream → stream.pending = [] :=
      fun hstage _ hstream => (listen_quiet s _ hstage hstream).1
    rcases hinformed.not_enough_of_open hopen' hbegun hquiet with
      ⟨hnone, endsAt, hlists⟩ | ⟨accounts, rfl, hmore⟩
    · left
      refine ⟨hnone, endsAt, ?_, ?_⟩
      · exact (works_after_begin s w).lists (phase_begin_ne_starting w s) endsAt hlists
      · exact lt_of_listsUntil?_work hlists
    · right
      rw [(follows_work s w).request] at hmore
      refine ⟨accounts, ?_, hmore⟩
      rcases hlisted with heq | ⟨hstage, hstage', accounts', haccounts, hlisting⟩
      · exact Or.inl heq.symm
      · cases haccounts
        exact Or.inr ⟨hstage, hstage', hlisting⟩

private theorem begun_pollAll (polls : List Surroundings) (hbegun : w.phase ≠ .starting) :
    (w.pollAll polls).phase ≠ .starting := by
  induction polls generalizing w with
  | nil => exact hbegun
  | cons s polls ih => exact ih (rests_turn w s).begun

/-- Polls leave the end of a listing as it was fixed. -/
private theorem listsUntil?_of_pollAll {endsAt : Nat} (polls : List Surroundings)
    (hbegun : w.phase ≠ .starting) (hlists : (w.pollAll polls).listsUntil? = some endsAt) :
    w.listsUntil? = some endsAt := by
  induction polls generalizing w with
  | nil => exact hlists
  | cons s polls ih =>
    have hturn := ih (rests_turn w s).begun hlists
    rw [turn, listsUntil?, letGo_phase, ← listsUntil?] at hturn
    exact (works_work s w).lists hbegun endsAt (listsUntil?_of_poll hturn)

end Wait

namespace World

variable {w : World} {n : Nat} {deadline : Option Nat} {endsAt : Nat}

/-- The `n`-th wait keeps to its deadline so far. -/
def Schedules (w : World) (n : Nat) (deadline : Option Nat) (endsAt : Nat) : Prop :=
  ∃ e, w.waitAt? n = some e ∧ e.wait.Scheduled deadline endsAt w.now

/-- The clock moves on, though not past a timer of the wait, and all background work goes as far as
it gets. -/
theorem Schedules.settleAt (h : w.Schedules n deadline endsAt) {later : Nat}
    (hdue : ∀ e, w.waitAt? n = some e → (∀ time ∈ e.wait.timers, w.now < time) →
      ∀ time ∈ e.wait.timers, later ≤ time) :
    ({ w with now := later } : World).settle.Schedules n deadline endsAt := by
  obtain ⟨e, he, hscheduled⟩ := h
  have hsettle := waitAt?_settle { w with now := later } n
  have hsame : ({ w with now := later } : World).waitAt? n = some e := he
  rw [hsame] at hsettle
  rw [Schedules, settle_now]
  exact ⟨_, hsettle, hscheduled.turn (hdue e he hscheduled.ahead)⟩

theorem Schedules.settle (h : w.Schedules n deadline endsAt) :
    w.settle.Schedules n deadline endsAt :=
  h.settleAt fun _ _ hahead time htime => Nat.le_of_lt (hahead time htime)

theorem Schedules.runUntil (h : w.Schedules n deadline endsAt) (target : Nat) :
    (w.runUntil target).Schedules n deadline endsAt := by
  fun_induction World.runUntil target w with
  | case1 w t ht hnext ih =>
    exact ih (h.settleAt fun e he hahead => le_of_mem_timers he hahead ht)
  | case2 w t ht hlast =>
    -- The next timer lies behind the target.
    have hlt := (nextTimer?_eq_some_iff.mp ht).2.1
    refine h.settleAt fun e he hahead time htime => ?_
    have hle := le_of_mem_timers he hahead ht time htime
    omega
  | case3 w ht =>
    refine h.settleAt fun e he hahead time htime => ?_
    rw [timers_eq_nil he hahead ht] at htime
    cases htime

theorem Schedules.act (h : w.Schedules n deadline endsAt) (m : Move) :
    (w.act m).Schedules n deadline endsAt := by
  have struck (m : Move) : (w.mapWaits (·.undergo m)).Schedules n deadline endsAt := by
    obtain ⟨e, he, hscheduled⟩ := h
    refine ⟨_, (waitAt?_mapWaits w n (·.undergo m)).trans (congrArg _ he), hscheduled.undergo m⟩
  have passed {w' : World} (target : Nat) (hwaits : w'.waits = w.waits) (hnow : w'.now = w.now) :
      (w'.runUntil target).Schedules n deadline endsAt :=
    Schedules.runUntil (by rwa [Schedules, waitAt?, hwaits, hnow]) target
  cases m with
  | settle => exact h.settle
  | happen happening =>
    cases happening with
    | account a => exact struck (.happen (.account a))
    | streamsClose => exact struck (.happen .streamsClose)
    | time ms => exact passed _ rfl rfl
    | list kind status => exact passed _ rfl rfl
    | history scope options => exact passed _ (by rfl) (by rfl)
    | wait id kind request timeout =>
      obtain ⟨e, he, hscheduled⟩ := h
      exact Schedules.settle ⟨e, waitAt?_cons he _, hscheduled⟩
    | subscribe id scope asks failsAt =>
      simp only [World.act, World.after, World.subscribe]
      split
      · exact h
      · cases w.endpoint.serve .logsSubscribe with
        | error e => exact h
        | ok => exact Schedules.settle h
    | _ => exact h

theorem Schedules.play (h : w.Schedules n deadline endsAt) (moves : List Move) :
    (w.play moves).Schedules n deadline endsAt := by
  induction moves generalizing w with
  | nil => exact h
  | cons m moves ih => exact ih (h.act m)

variable {kind : EntityKind}

theorem schedules_startWait (w : World) (id : String)
    (request : WaitRequest kind.Record kind.Status) (timeout : Option UInt64) :
    (w.startWait id kind request timeout).Schedules w.waits.length
      (w.client.wait w.now request timeout).deadline (w.now + w.endpoint.listingDelay) := by
  rw [Schedules, now_startWait]
  refine ⟨_, waitAt?_startWait w id kind request timeout, (Wait.scheduled_poll rfl ?_ ?_ ?_).letGo⟩
  · exact fun time htime => Wait.eq_of_listsUntil?_begin rfl htime
  · intro time htime
    obtain ⟨ms, -, rfl⟩ := Option.map_eq_some_iff.mp (Option.mem_toList.mp htime)
    exact Nat.le_add_right w.now ms.toNat
  · intro ended hend
    cases hend

/-- What the `n`-th wait had observed by a time is not enough. The wait was to list until another
time. -/
inductive FallsShort (w : World) (n : Nat) {kind : EntityKind}
    (request : WaitRequest kind.Record kind.Status) (endsAt : Nat) (moves : List Move)
    (time : Nat) : Prop
  /-- It was still listing, and no change had reached it. -/
  | unlisted (hlists : time < endsAt) (hnone : w.arrivals n moves = [])
      (hmore : ¬ request.Enough [])
  /-- What its listing showed is not enough, even with all changes that had reached it since. -/
  | listed {j : Nat} {accounts : List RawAccount}
      (hlists : w.ListsWith n request.filters moves j accounts)
      (hmore : ¬ request.Enough
        (request.sightings (accounts.map RawAccount.change ++ w.arrivals n moves)))

section Timeout

variable {request : WaitRequest kind.Record kind.Status} {expected : Nat} {status : String}

/-- A wait whose listing goes on after some moves was listing before. -/
private theorem stage?_take_eq_listing {wait : Wait kind.Record kind.Status} {moves : List Move}
    (h : w.Begins n request) (hwait : (w.play moves).waitAt? n = some ⟨kind, wait⟩)
    (hstage : wait.stage = .listing) (i : Nat) :
    (w.play (moves.take i)).stage? n = some .listing := by
  obtain ⟨wait', -, hwait', -⟩ := h.informed_play (moves.take i)
  obtain ⟨wait'', hwait'', hfollows⟩ := follows_play hwait' (moves.drop i)
  rw [← play_append, List.take_append_drop] at hwait''
  cases hwait.symm.trans hwait''
  rw [stage?_eq_some hwait', hfollows.stage_eq_listing hstage]

/-- A listing that goes on after some moves ends with the next one. -/
private theorem Begins.listsWith_concat (h : w.Begins n request)
    {wait : Wait kind.Record kind.Status}
    {moves : List Move} {m : Move} (hwait : (w.play moves).waitAt? n = some ⟨kind, wait⟩)
    (hstage : wait.stage = .listing) (hafter : (w.play (moves ++ [m])).stage? n ≠ some .listing)
    {filters : List Filter} {accounts : List RawAccount}
    (hlisting : (w.play (moves ++ [m])).endpoint.listing filters = .ok accounts) :
    w.ListsWith n filters (moves ++ [m]) (moves ++ [m]).length accounts := by
  rw [← List.take_length (l := moves ++ [m])] at hafter hlisting
  refine ⟨Nat.le_refl _, ?_, hafter, hlisting⟩
  intro i hi
  rw [List.length_append, List.length_singleton] at hi
  rw [List.take_append_of_le_length (Nat.le_of_lt_succ hi)]
  exact stage?_take_eq_listing h hwait hstage i

/-- A listing that was answered before the move with which a wait ends, or with that move. -/
private theorem Begins.exists_listsWith_concat (h : w.Begins n request)
    {wait : Wait kind.Record kind.Status} {moves : List Move} {m : Move}
    (hwait : (w.play moves).waitAt? n = some ⟨kind, wait⟩)
    (hover : (w.play (moves ++ [m])).stage? n = some .finished) {accounts : List RawAccount}
    (hanswer : (∃ j, w.ListsWith n request.filters moves j accounts) ∨ wait.stage = .listing ∧
      (w.play (moves ++ [m])).endpoint.listing request.filters = .ok accounts) :
    ∃ j, w.ListsWith n request.filters (moves ++ [m]) j accounts := by
  rcases hanswer with ⟨j, hj⟩ | ⟨hstage, hlisting⟩
  · exact ⟨j, hj.append [m]⟩
  · refine ⟨_, h.listsWith_concat hwait hstage ?_ hlisting⟩
    rw [hover]
    decide

/-- A move with which a wait runs out of time takes it to its deadline. -/
private theorem Begins.fallsShort_act (h : w.Begins n request)
    (hschedules : w.Schedules n deadline endsAt)
    (htargets : request.targets ≠ []) (moves : List Move) (m : Move)
    (hbefore : (w.play moves).outcomeAt? n = none)
    (hend : (w.play (moves ++ [m])).outcomeAt? n = some ⟨kind, .error (.timeout expected status)⟩) :
    ∃ time, deadline = some time ∧ (w.play (moves ++ [m])).endedAt? n = some time ∧
      w.FallsShort n request endsAt (moves ++ [m]) time := by
  obtain ⟨wait, listed, hwait, hrequest, hinformed, hlists⟩ := h.informed_play moves
  obtain ⟨e, he, hscheduled⟩ := hschedules.play moves
  cases hwait.symm.trans he
  obtain ⟨e', he', hscheduled'⟩ := hschedules.play (moves ++ [m])
  obtain ⟨polls, hpolls, hwaits⟩ := waitAt?_act (w.play moves) m
  rw [← play_concat] at hpolls hwaits
  have hwait' := hwaits n _ hwait
  cases he'.symm.trans hwait'
  -- One of the polls ends the wait, and those after it let it be.
  rw [outcomeAt?_eq_some_iff hwait'] at hend
  have hnone : (wait.undergo m).outcome? = none := by
    rwa [Wait.outcome?_undergo, ← outcomeAt?_eq_none_iff hwait]
  obtain ⟨earlier, s, later, rfl, hopen, hlast⟩ := Wait.exists_poll hnone hend
  have hover := Wait.pollAll_append_cons hlast later
  rw [Wait.turn] at hover
  have hundergo := informed_undergo hwait hinformed m
  obtain ⟨listed', hinformed', hlisted'⟩ := Wait.informed_pollAll hundergo
    (w.play (moves ++ [m])).endpoint earlier
    fun t ht => (hpolls t (List.mem_append_left _ ht)).endpoint
  obtain ⟨⟨time, htime, hle⟩, hended, hshort⟩ := hinformed'.timeout_of_poll hopen hlast
  have hbegun : (wait.undergo m).phase ≠ .starting := by
    rw [(wait.undergo_frame m).1]
    exact hscheduled.begun
  have hfollows := (Wait.follows_undergo wait m).trans (Wait.follows_pollAll earlier _)
  rw [(Wait.keeps_pollAll earlier _).deadline, (wait.undergo_frame m).2,
    hscheduled.deadline_eq] at htime
  have hpunctual : s.now = time := by
    rw [EntityWait.modify, hover] at hscheduled'
    rw [← Wait.endedAt?_letGo] at hended
    exact Nat.le_antisymm (hscheduled'.ended s.now hended time htime) hle
  refine ⟨time, htime, ?_, ?_⟩
  · rw [endedAt?, hwait', Option.bind_some, EntityWait.modify, hover, Wait.endedAt?_letGo, hended,
      hpunctual]
  rw [hfollows.request, hrequest, ← arrivals_concat] at hshort
  rcases hshort with ⟨hnone, endsAt', hlists', hlt⟩ | ⟨accounts, haccounts, hmore⟩
  · rw [Wait.begin_eq_self_of_begun (Wait.begun_pollAll earlier hbegun)] at hlists'
    have hstruck := Wait.listsUntil?_of_pollAll earlier hbegun hlists'
    rw [Wait.listsUntil?, (wait.undergo_frame m).1, ← Wait.listsUntil?] at hstruck
    cases hscheduled.lists endsAt' hstruck
    exact .unlisted (hpunctual ▸ hlt) hnone (request.not_enough_nil htargets)
  · -- The listing was answered before the last poll, or with it.
    have hanswer : (∃ j, w.ListsWith n request.filters moves j accounts) ∨
        wait.stage = .listing ∧
          (w.play (moves ++ [m])).endpoint.listing request.filters = .ok accounts := by
      rcases haccounts with rfl | ⟨hstage, -, hlisting⟩
      · rcases hlisted' with rfl | ⟨hstage, -, accounts', haccounts', hlisting⟩
        · exact Or.inl (hlists accounts rfl)
        · cases haccounts'
          rw [(Wait.follows_undergo wait m).request, hrequest] at hlisting
          exact Or.inr ⟨(wait.stage_undergo m).symm.trans hstage, hlisting⟩
      · rw [(hpolls s (by simp)).endpoint] at hlisting
        exact Or.inr ⟨hfollows.stage_eq_listing hstage, hlisting⟩
    obtain ⟨j, hj⟩ := h.exists_listsWith_concat hwait
      (stage?_of_outcomeAt? ((outcomeAt?_eq_some_iff hwait').mpr hend)) hanswer
    exact .listed hj hmore

/-- A wait that runs out of time as soon as it is asked for has its deadline there. -/
private theorem fallsShort_startWait (w : World) (id : String)
    (request : WaitRequest kind.Record kind.Status) (timeout : Option UInt64)
    (htargets : request.targets ≠ [])
    (hend : (w.startWait id kind request timeout).outcomeAt? w.waits.length =
      some ⟨kind, .error (.timeout expected status)⟩) :
    ∃ time, (w.client.wait w.now request timeout).deadline = some time ∧
      (w.startWait id kind request timeout).endedAt? w.waits.length = some time ∧
      (w.startWait id kind request timeout).FallsShort w.waits.length request
        (w.now + w.endpoint.listingDelay) [] time := by
  have hstart := waitAt?_startWait w id kind request timeout
  have hstarting : (w.client.wait w.now request timeout).Informed none [] := .starting
  have hover := stage?_of_outcomeAt? hend
  rw [outcomeAt?_eq_some_iff hstart, Wait.turn, Wait.outcome?_letGo] at hend
  obtain ⟨⟨time, htime, hle⟩, hended, hshort⟩ := hstarting.timeout_of_poll rfl hend
  have hpunctual : w.surroundings.now = time := by
    obtain ⟨ms, -, rfl⟩ := Option.map_eq_some_iff.mp htime
    exact Nat.le_antisymm (Nat.le_add_right w.now ms.toNat) hle
  refine ⟨time, htime, ?_, ?_⟩
  · rw [endedAt?, hstart, Option.bind_some, Wait.turn, Wait.endedAt?_letGo, hended, hpunctual]
  rcases hshort with ⟨-, endsAt, hlists, hlt⟩ | ⟨accounts, haccounts, hmore⟩
  · cases Wait.eq_of_listsUntil?_begin rfl hlists
    exact .unlisted (hpunctual ▸ hlt) rfl (request.not_enough_nil htargets)
  · rcases haccounts with hnone | ⟨-, -, hlisting⟩
    · cases hnone
    · refine .listed ⟨Nat.le_refl 0, fun i hi => absurd hi (Nat.not_lt_zero i), ?_, ?_⟩ hmore
      · rw [List.take_nil, play_nil, hover]
        decide
      · rw [List.take_nil, play_nil, endpoint_startWait]
        exact hlisting

/-- A wait without targets does not last until it runs out of time. -/
private theorem targets_ne_nil_of_timeout (w : World) (id : String)
    (request : WaitRequest kind.Record kind.Status) (timeout : Option UInt64) {moves : List Move}
    (hend : ((w.startWait id kind request timeout).play moves).outcomeAt? w.waits.length =
      some ⟨kind, .error (.timeout expected status)⟩) : request.targets ≠ [] := by
  intro hnil
  cases hcan : w.client.canSubscribe with
  | false =>
    have hrefused := waitAt?_of_refused w id request timeout (turn_missing w request timeout hcan)
    rw [outcomeAt?, hrefused moves] at hend
    cases hend
  | true =>
    have hrefused := waitAt?_of_refused w id request timeout
      (turn_emptyTargets w request timeout hcan hnil)
    rw [outcomeAt?, hrefused moves] at hend
    cases hend

/-- A wait that has run out of time did so after some moves, at its deadline. -/
private theorem exists_fallsShort (w : World) (id : String)
    (request : WaitRequest kind.Record kind.Status) (timeout : Option UInt64) {moves : List Move}
    (hend : ((w.startWait id kind request timeout).play moves).outcomeAt? w.waits.length =
      some ⟨kind, .error (.timeout expected status)⟩) :
    ∃ time, (w.client.wait w.now request timeout).deadline = some time ∧
      ((w.startWait id kind request timeout).play moves).endedAt? w.waits.length = some time ∧
      ∃ done rest, moves = done ++ rest ∧
        (w.startWait id kind request timeout).EndsAfter w.waits.length done ∧
        (w.startWait id kind request timeout).FallsShort w.waits.length request
          (w.now + w.endpoint.listingDelay) done time := by
  have hbegins := begins_startWait w id request timeout
  have htargets := targets_ne_nil_of_timeout w id request timeout hend
  rcases hbegins.exists_last hend with hover | ⟨before, m, rest, rfl, hbefore, hover⟩
  · obtain ⟨time, htime, hended, hshort⟩ := fallsShort_startWait w id request timeout htargets hover
    rw [← play_nil (w.startWait id kind request timeout)] at hended
    rw [endedAt?, ← hbegins.waitAt?_append (by rwa [play_nil]) moves] at hended
    exact ⟨time, htime, hended, [], moves, rfl, endsAfter_nil hover, hshort⟩
  · obtain ⟨time, htime, hended, hshort⟩ :=
      hbegins.fallsShort_act (schedules_startWait w id request timeout) htargets before m hbefore
        hover
    rw [endedAt?, ← hbegins.waitAt?_append hover rest] at hended
    exact ⟨time, htime, hended, before ++ [m], rest, rfl, hbegins.endsAfter_concat hbefore hover,
      hshort⟩

end Timeout

/-- How the `n`-th wait keeps to its deadline, which was started in the world `w` with some time and
led to the world `w'`. -/
structure KeepsDeadline (w w' : World) (n : Nat) {kind : EntityKind}
    (request : WaitRequest kind.Record kind.Status) (ms? : Option UInt64) : Prop where
  /-- It is over once its time has passed, whatever it was at. -/
  due : ∀ ms, ms? = some ms → ∀ moves, w.now + ms.toNat ≤ (w'.play moves).now →
    (w'.play moves).stage? n = some .finished
  /-- It did not end later. -/
  punctual : ∀ ms, ms? = some ms → ∀ moves ended, (w'.play moves).endedAt? n = some ended →
    ended ≤ w.now + ms.toNat
  /-- If it ran out of time, it ended no earlier, and what it had observed by then was not
  enough. -/
  timeout : ∀ moves expected status,
    (w'.play moves).outcomeAt? n = some ⟨kind, .error (.timeout expected status)⟩ →
    ∃ ms, ms? = some ms ∧ (w'.play moves).endedAt? n = some (w.now + ms.toNat) ∧
      ∃ done rest, moves = done ++ rest ∧ w'.EndsAfter n done ∧
        w'.FallsShort n request (w.now + w.endpoint.listingDelay) done (w.now + ms.toNat)
  /-- It does not run out of time if it was given none. -/
  never : ms? = none → ∀ moves expected status,
    (w'.play moves).outcomeAt? n ≠ some ⟨kind, .error (.timeout expected status)⟩

/-- Every wait keeps to its deadline. Where it is given no time, that of the settings counts. -/
theorem keepsDeadline_startWait (w : World) (id : String)
    (request : WaitRequest kind.Record kind.Status) (timeout : Option UInt64) :
    w.KeepsDeadline (w.startWait id kind request timeout) w.waits.length request
      (timeout.or w.client.monitor.waitTimeout) := by
  have hdeadline {ms : UInt64} (hms : timeout.or w.client.monitor.waitTimeout = some ms) :
      (w.client.wait w.now request timeout).deadline = some (w.now + ms.toNat) :=
    congrArg (Option.map fun ms : UInt64 => w.now + ms.toNat) hms
  have hschedules (moves : List Move) := (schedules_startWait w id request timeout).play moves
  have htimeout (moves : List Move) (expected : Nat) (status : String)
      (hend : ((w.startWait id kind request timeout).play moves).outcomeAt? w.waits.length =
        some ⟨kind, .error (.timeout expected status)⟩) :=
    exists_fallsShort w id request timeout hend
  constructor
  case due =>
    intro ms hms moves hle
    obtain ⟨e, he, hscheduled⟩ := hschedules moves
    rw [stage?_eq_some he]
    by_contra hopen
    have htimer : w.now + ms.toNat ∈ e.wait.timers := by
      refine Wait.mem_timers_iff.mpr ⟨Wait.outcome?_eq_none_iff.mpr ?_, Or.inr (Or.inr ?_)⟩
      · exact fun hstage => hopen (congrArg some hstage)
      · rw [hscheduled.deadline_eq, hdeadline hms]
    exact Nat.not_lt.mpr hle (hscheduled.ahead _ htimer)
  case punctual =>
    intro ms hms moves ended hend
    obtain ⟨e, he, hscheduled⟩ := hschedules moves
    rw [endedAt?, he, Option.bind_some] at hend
    exact hscheduled.ended ended hend _ (hdeadline hms)
  case timeout =>
    intro moves expected status hend
    obtain ⟨time, htime, hrest⟩ := htimeout moves expected status hend
    obtain ⟨ms, hms, rfl⟩ := Option.map_eq_some_iff.mp htime
    exact ⟨ms, hms, hrest⟩
  case never =>
    intro hnone moves expected status hend
    obtain ⟨time, htime, -⟩ := htimeout moves expected status hend
    rw [Client.wait, hnone] at htime
    cases htime

set_option maxRecDepth 10000 in
/-- The deadline comes while the call for the stream stalls. -/
example : ((slowStreams.startWait "late" .node .secondNode (some 5)).play
    [.happen (.time 20)]).endedAt? 0 = some 5 := by
  decide +kernel

end World

end ComputeNet
