import Mathlib.Data.List.Induction
import Mathlib.Data.Set.Card
import ComputeNet.Proofs.Feed.Kept
import ComputeNet.Proofs.Wait.Streams

/-!
# The streams of a world

No stream is left open and none is opened twice. With nothing left to do, the streams of accounts
are those of the waits that go on and have opened one, and the streams of logs are those of the
feeds that were kept and whose receivers have not failed (`streamsAccounted_play`).
-/

namespace ComputeNet

/-- How many items have a property is how many places hold an item that has it. -/
theorem countP_eq_ncard {α : Type} (p : α → Bool) (items : List α) :
    items.countP p = {n : Nat | ∃ a, items.reverse[n]? = some a ∧ p a = true}.ncard := by
  induction items with
  | nil => simp
  | cons a items ih =>
    have hend : items.length ∉ {n : Nat | ∃ b, items.reverse[n]? = some b ∧ p b = true} := by
      simp
    have hfinite : {n : Nat | ∃ b, items.reverse[n]? = some b ∧ p b = true}.Finite := by
      refine (Set.finite_lt_nat items.length).subset ?_
      rintro n ⟨b, hb, -⟩
      simpa using (List.getElem?_eq_some_iff.mp hb).1
    rw [List.countP_cons, ih]
    cases ha : p a with
    | true =>
      rw [if_pos rfl, ← Set.ncard_insert_of_notMem hend hfinite]
      congr 1
      ext n
      simp only [World.getElem?_reverse_cons, Set.mem_ofPred_eq, Set.mem_insert_iff]
      by_cases hn : n = items.length <;> simp [hn, ha]
    | false =>
      rw [if_neg Bool.false_ne_true, Nat.add_zero]
      congr 1
      ext n
      simp only [World.getElem?_reverse_cons, Set.mem_ofPred_eq]
      by_cases hn : n = items.length <;> simp [hn, ha]

namespace World

/-- Each wait agrees with the number of streams that it has opened. -/
def Opens (w : World) : Prop := ∀ e ∈ w.waits, e.wait.wait.Opens

theorem Opens.settle {w : World} (h : w.Opens) : w.settle.Opens := by
  rw [settle_eq]
  exact List.forall_mem_map.mpr fun e he => (h e he).turn _

theorem Opens.runUntil {w : World} (h : w.Opens) (target : Nat) : (w.runUntil target).Opens := by
  fun_induction World.runUntil target w with
  | case1 w t ht hnext ih => exact ih (Opens.settle (w := { w with now := t }) h)
  | case2 w t ht hlast => exact Opens.settle (w := { w with now := max w.now target }) h
  | case3 w ht => exact Opens.settle (w := { w with now := max w.now target }) h

theorem Opens.act {w : World} (h : w.Opens) (m : Move) : (w.act m).Opens := by
  have passed {w' : World} (hwaits : w'.waits = w.waits) (target : Nat) :
      (w'.runUntil target).Opens := Opens.runUntil (by rwa [Opens, hwaits]) target
  have struck (m : Move) : (w.mapWaits (·.undergo m)).Opens :=
    List.forall_mem_map.mpr fun e he => (h e he).undergo m
  cases m with
  | settle => exact h.settle
  | happen happening =>
    cases happening with
    | account a => exact struck (.happen (.account a))
    | streamsClose => exact struck (.happen .streamsClose)
    | time ms => exact passed rfl _
    | list kind status => exact passed rfl _
    | history scope options => exact passed (by rfl) _
    | wait id kind request timeout =>
      exact Opens.settle (List.forall_mem_cons.mpr ⟨.starting, h⟩)
    | subscribe id scope asks failsAt =>
      simp only [World.act, World.after, World.subscribe]
      split
      · exact h
      · cases w.endpoint.serve .logsSubscribe with
        | error e => exact h
        | ok => exact Opens.settle h
    | _ => exact h

theorem Opens.play {w : World} (h : w.Opens) (moves : List Move) : (w.play moves).Opens := by
  induction moves generalizing w with
  | nil => exact h
  | cons m moves ih => exact ih (h.act m)

private theorem Opens.of_waitAt? {w : World} (h : w.Opens) {n : Nat} {e : EntityWait}
    (he : w.waitAt? n = some e) : e.wait.Opens := by
  obtain ⟨entry, hentry, rfl⟩ := Option.map_eq_some_iff.mp he
  exact h entry (List.mem_reverse.mp (List.mem_of_getElem? hentry))

/-- How many streams the `n`-th wait has opened. -/
def openedAt? (w : World) (n : Nat) : Option Nat := (w.waitAt? n).map (·.wait.opened)

/-- The time at which the `n`-th wait ended, if it is over. -/
def endedAt? (w : World) (n : Nat) : Option Nat := (w.waitAt? n).bind (·.wait.endedAt?)

/-- The time at which the listing of the `n`-th wait ends, while it goes on. -/
def listsUntil? (w : World) (n : Nat) : Option Nat := (w.waitAt? n).bind (·.wait.listsUntil?)

/-- The time at which the call of the `n`-th wait for a stream is answered, while it goes on. -/
def callsUntil? (w : World) (n : Nat) : Option Nat := (w.waitAt? n).bind (·.wait.callsUntil?)

theorem openedAt?_eq_some {w : World} {n : Nat} {e : EntityWait} (h : w.waitAt? n = some e) :
    w.openedAt? n = some e.wait.opened := by
  rw [openedAt?, h]
  rfl

variable {kind : EntityKind} {n : Nat}

/-- What a move leaves of the time before which a wait opens no stream. -/
theorem notBefore_act {w : World} {wait : Wait kind.Record kind.Status}
    (hwait : w.waitAt? n = some ⟨kind, wait⟩) (m : Move) {time : Nat}
    (h : wait.NotBefore (w.act m).endpoint time w.now) :
    ∃ wait', (w.act m).waitAt? n = some ⟨kind, wait'⟩ ∧ wait.Follows wait' ∧
      wait'.NotBefore (w.act m).endpoint time (w.act m).now := by
  obtain ⟨polls, hpolls, hwaits⟩ := waitAt?_act_spans w m
  refine ⟨_, hwaits n _ hwait, ?_, ?_⟩
  · exact (Wait.follows_undergo wait m).trans (Wait.follows_pollAll polls _)
  · exact (h.undergo m).pollAll (fun s hs => (hpolls.surrounds s hs).endpoint)
      (fun s hs => (hpolls.surrounds s hs).now_le) hpolls.sorted hpolls.le

/-- Once its listing was answered, a wait opens no stream before a time whatever happens. -/
theorem notBefore_play {w : World} {wait : Wait kind.Record kind.Status}
    (hwait : w.waitAt? n = some ⟨kind, wait⟩) (hstage : wait.stage ≠ .listing) {e : Endpoint}
    {time : Nat} (h : wait.NotBefore e time w.now) (moves : List Move) :
    ∃ wait', (w.play moves).waitAt? n = some ⟨kind, wait'⟩ ∧
      wait'.NotBefore e time (w.play moves).now := by
  induction moves generalizing w wait with
  | nil => exact ⟨wait, hwait, h⟩
  | cons m moves ih =>
    obtain ⟨wait', hwait', hfollows, h'⟩ :=
      notBefore_act hwait m (h.of_stage_ne_listing hstage (w.act m).endpoint)
    have hstage' : wait'.stage ≠ .listing := fun heq => hstage (hfollows.stage_eq_listing heq)
    exact ih hwait' hstage' (h'.of_stage_ne_listing hstage' e)

/-- A time before which the call of the `n`-th wait for its stream is not answered in the course of
some moves. The wait was started in the world `w` and led to the world `w'`. It calls when its
listing has been answered, and the endpoint takes some time then. -/
inductive StallsUntil (w w' : World) (n : Nat) (moves : List Move) : Nat → Prop
  /-- The listing was answered when the wait started. -/
  | starting (hlisted : w'.stage? n ≠ some .listing) :
      StallsUntil w w' n moves (w.now + w.endpoint.listingDelay + w.endpoint.subscribeDelay)
  /-- The listing was answered with a move. -/
  | listing {before after : List Move} {m : Move} {endsAt : Nat}
      (hmoves : moves = before ++ m :: after)
      (hlists : (w'.play before).listsUntil? n = some endsAt)
      (hlisted : (w'.play (before ++ [m])).stage? n ≠ some .listing) :
      StallsUntil w w' n moves (endsAt + (w'.play (before ++ [m])).endpoint.subscribeDelay)
  /-- The call had been made before some of the moves. -/
  | subscribing {before after : List Move} {opensAt : Nat} (hmoves : moves = before ++ after)
      (hcalls : (w'.play before).callsUntil? n = some opensAt) : StallsUntil w w' n moves opensAt

/-- What streams the `n`-th wait opens, which was started in the world `w` and led to the world
`w'`. -/
structure OpensOnce (w w' : World) (n : Nat) {kind : EntityKind}
    (request : WaitRequest kind.Record kind.Status) : Prop where
  /-- It opens one at most. -/
  le_one : ∀ moves, ∃ count ≤ 1, (w'.play moves).openedAt? n = some count
  /-- While it goes on, it has opened one if its call for it has been answered. -/
  pending : ∀ moves stage, (w'.play moves).stage? n = some stage → stage ≠ .finished →
    (w'.play moves).openedAt? n = some (if stage = .listening then 1 else 0)
  /-- It opens none if its listing is answered with enough. -/
  listed : ∀ moves j accounts, w'.ListsWith n request.filters moves j accounts →
    request.Enough (request.sightings (accounts.map RawAccount.change)) →
    (w'.play moves).openedAt? n = some 0
  /-- It has opened none if it failed in another way than waits with a stream do. -/
  failed : ∀ moves e, (w'.play moves).outcomeAt? n = some ⟨kind, .error e⟩ → ¬ e.Interrupts →
    (w'.play moves).openedAt? n = some 0
  /-- It opens none any more once its token was fired. -/
  calledOff : ∀ before after, (w'.play before).openedAt? n = some 0 →
    request.isCalledOff (w'.play before).fired = true →
    (w'.play (before ++ after)).openedAt? n = some 0
  /-- It has opened none if it ended before its call for a stream could be answered. -/
  stalled : ∀ moves time ended, w.StallsUntil w' n moves time →
    (w'.play moves).endedAt? n = some ended → ended < time → (w'.play moves).openedAt? n = some 0
  /-- Once it is over, it has let go of its stream, and it opens none later. -/
  released : ∀ moves, (w'.play moves).stage? n = some .finished →
    (∀ e, (w'.play moves).waitAt? n = some e → e.wait.stream = none) ∧
    ∀ more, (w'.play (moves ++ more)).waitAt? n = (w'.play moves).waitAt? n

section Start

variable {w : World} (h : w.Opens) (id : String) (request : WaitRequest kind.Record kind.Status)
  (timeout : Option UInt64)

include h

theorem Opens.exists_waitAt? (moves : List Move) :
    ∃ wait, ((w.startWait id kind request timeout).play moves).waitAt? w.waits.length =
        some ⟨kind, wait⟩ ∧ wait.request = request ∧ wait.Opens := by
  have hstart := waitAt?_startWait w id kind request timeout
  obtain ⟨wait, hwait, hfollows⟩ := follows_play hstart moves
  have hopens := (h.act (.happen (.wait id kind request timeout))).play moves
  have hrequest := (Wait.follows_turn w.surroundings (w.client.wait w.now request timeout)).request
  exact ⟨wait, hwait, hfollows.request.trans hrequest, hopens.of_waitAt? hwait⟩

omit h in
/-- A wait whose listing was answered when it started opens no stream before a time. -/
theorem notBefore_startWait {time : Nat}
    (hnot : (w.client.wait w.now request timeout).NotBefore w.endpoint time w.now)
    (hlisted : (w.startWait id kind request timeout).stage? w.waits.length ≠ some .listing)
    (moves : List Move) :
    ∃ wait, ((w.startWait id kind request timeout).play moves).waitAt? w.waits.length =
        some ⟨kind, wait⟩ ∧
      wait.NotBefore w.endpoint time ((w.startWait id kind request timeout).play moves).now := by
  have hstart := waitAt?_startWait w id kind request timeout
  rw [stage?_eq_some hstart] at hlisted
  have hturn := Wait.NotBefore.turn (s := w.surroundings) hnot (Nat.le_refl w.now)
  rw [show w.surroundings.now = (w.startWait id kind request timeout).now from
    (now_startWait w id request timeout).symm] at hturn
  exact notBefore_play hstart (fun heq => hlisted (congrArg some heq)) hturn moves

omit h in
/-- A wait whose listing was answered with a move opens no stream before a time. -/
theorem notBefore_concat {wait : Wait kind.Record kind.Status}
    (hwait : w.waitAt? n = some ⟨kind, wait⟩) {m : Move} {time : Nat}
    (hnot : wait.NotBefore (w.act m).endpoint time w.now)
    (hlisted : (w.act m).stage? n ≠ some .listing) (moves : List Move) :
    ∃ wait, ((w.act m).play moves).waitAt? n = some ⟨kind, wait⟩ ∧
      wait.NotBefore (w.act m).endpoint time ((w.act m).play moves).now := by
  obtain ⟨wait', hwait', -, hnot'⟩ := notBefore_act hwait m hnot
  rw [stage?_eq_some hwait'] at hlisted
  exact notBefore_play hwait' (fun heq => hlisted (congrArg some heq)) hnot' moves

/-- A wait opens no stream before its call for one is answered. -/
private theorem Opens.exists_notBefore {moves : List Move} {time : Nat}
    (hstalls : w.StallsUntil (w.startWait id kind request timeout) w.waits.length moves time) :
    ∃ (wait : Wait kind.Record kind.Status) (e : Endpoint) (now : Nat),
      ((w.startWait id kind request timeout).play moves).waitAt? w.waits.length =
        some ⟨kind, wait⟩ ∧ wait.NotBefore e time now := by
  cases hstalls with
  | starting hlisted =>
    have hnot : (w.client.wait w.now request timeout).NotBefore w.endpoint
        (w.now + w.endpoint.listingDelay + w.endpoint.subscribeDelay) w.now :=
      ⟨rfl, Or.inr (Nat.le_refl _)⟩
    obtain ⟨wait, hwait, hnot'⟩ := notBefore_startWait id request timeout hnot hlisted moves
    exact ⟨wait, _, _, hwait, hnot'⟩
  | @listing before after m endsAt hmoves hlists hlisted =>
    obtain ⟨wait, hwait, -, hopens⟩ := h.exists_waitAt? id request timeout before
    rw [listsUntil?, hwait] at hlists
    rw [play_concat] at hlisted ⊢
    obtain ⟨wait', hwait', hnot'⟩ :=
      notBefore_concat hwait (hopens.notBefore_of_listsUntil? _ _ hlists) hlisted after
    refine ⟨wait', _, _, ?_, hnot'⟩
    rw [hmoves, play_append]
    exact hwait'
  | @subscribing before after opensAt hmoves hcalls =>
    obtain ⟨wait, hwait, -, hopens⟩ := h.exists_waitAt? id request timeout before
    rw [callsUntil?, hwait] at hcalls
    have hstage : wait.stage ≠ .listing := Wait.stage_of_callsUntil? hcalls
    obtain ⟨wait', hwait', hnot'⟩ :=
      notBefore_play hwait hstage (hopens.notBefore_of_callsUntil? w.endpoint _ hcalls) after
    refine ⟨wait', _, _, ?_, hnot'⟩
    rw [hmoves, play_append]
    exact hwait'

omit h in
theorem openedAt?_of_forall_notBefore {e : Endpoint} {now : Nat}
    (hnot : ∀ time, ∃ wait : Wait kind.Record kind.Status,
      w.waitAt? n = some ⟨kind, wait⟩ ∧ wait.NotBefore e time now) :
    w.openedAt? n = some 0 := by
  obtain ⟨wait, hwait, -⟩ := hnot 0
  have hall (time : Nat) : wait.NotBefore e time now := by
    obtain ⟨wait', hwait', hnot'⟩ := hnot time
    cases hwait.symm.trans hwait'
    exact hnot'
  rw [openedAt?_eq_some hwait, Wait.NotBefore.opened_eq_zero hall]

/-- A wait whose listing was answered with enough has opened no stream. -/
private theorem Opens.openedAt?_of_listed {moves : List Move} {j : Nat} {accounts : List RawAccount}
    (hlists : (w.startWait id kind request timeout).ListsWith w.waits.length request.filters
      moves j accounts)
    (henough : request.Enough (request.sightings (accounts.map RawAccount.change))) :
    ((w.startWait id kind request timeout).play moves).openedAt? w.waits.length = some 0 := by
  have hlisted := WaitRequest.listedAt_of_enough hlists.listing henough
  have hafter := hlists.after
  cases j with
  | zero =>
    -- The listing was answered when the wait started.
    have hstarting : (w.client.wait w.now request timeout).Opens := .starting
    rw [List.take_zero, play_nil, endpoint_startWait] at hlisted
    exact openedAt?_of_forall_notBefore fun time => notBefore_startWait id request timeout
      (hstarting.notBefore_of_listedAt w.endpoint w.now rfl hlisted time) hafter moves
  | succ i =>
    obtain ⟨before, m, after, rfl, rfl⟩ :
        ∃ before m after, moves = before ++ m :: after ∧ before.length = i := by
      have hlt : i < moves.length := hlists.le_length
      refine ⟨moves.take i, moves[i], moves.drop (i + 1), by simp, ?_⟩
      rw [List.length_take, Nat.min_eq_left (Nat.le_of_lt hlt)]
    have hstage := hlists.before before.length (Nat.lt_succ_self _)
    rw [List.take_left] at hstage
    obtain ⟨wait, hwait, hrequest, hopens⟩ := h.exists_waitAt? id request timeout before
    rw [stage?_eq_some hwait, Option.some.injEq] at hstage
    rw [List.take_length_add_append, List.take_succ_cons, List.take_zero, play_concat]
      at hlisted hafter
    rw [play_append, play_cons]
    exact openedAt?_of_forall_notBefore fun time => notBefore_concat hwait
      (hopens.notBefore_of_listedAt _ _ hstage (by rwa [hrequest]) time) hafter after

/-- Once its token was fired, a wait that has opened no stream opens none any more. -/
private theorem Opens.openedAt?_of_isCalledOff {before : List Move}
    (hnone : ((w.startWait id kind request timeout).play before).openedAt? w.waits.length = some 0)
    (hfired : request.isCalledOff ((w.startWait id kind request timeout).play before).fired = true)
    (after : List Move) :
    ((w.startWait id kind request timeout).play (before ++ after)).openedAt? w.waits.length =
      some 0 := by
  induction after using List.reverseRecOn with
  | nil => rwa [List.append_nil]
  | append_singleton after m ih =>
    obtain ⟨wait, hwait, hrequest, -⟩ := h.exists_waitAt? id request timeout (before ++ after)
    obtain ⟨polls, hpolls, hwaits⟩ :=
      waitAt?_act ((w.startWait id kind request timeout).play (before ++ after)) m
    have hcalled : ∀ s ∈ polls, (wait.undergo m).request.isCalledOff s.fired = true := by
      intro s hs
      rw [(Wait.follows_undergo wait m).request, hrequest, (hpolls s hs).fired, play_append]
      exact isCalledOff_act (isCalledOff_play hfired after) m
    rw [openedAt?_eq_some hwait] at ih
    rw [← List.append_assoc, play_concat, openedAt?_eq_some (hwaits _ _ hwait), ← ih]
    rw [← wait.opened_undergo m]
    exact congrArg some (Wait.opened_pollAll_of_isCalledOff hcalled)

private theorem opensOnce_startWait :
    w.OpensOnce (w.startWait id kind request timeout) w.waits.length request where
  le_one moves := by
    obtain ⟨wait, hwait, -, hopens⟩ := h.exists_waitAt? id request timeout moves
    exact ⟨wait.opened, hopens.le_one, openedAt?_eq_some hwait⟩
  pending moves stage hstage hgoes := by
    obtain ⟨wait, hwait, -, hopens⟩ := h.exists_waitAt? id request timeout moves
    rw [stage?_eq_some hwait, Option.some.injEq] at hstage
    subst hstage
    rw [openedAt?_eq_some hwait, hopens.opened_of_stage hgoes]
  listed moves j accounts hlists henough := h.openedAt?_of_listed id request timeout hlists henough
  failed moves e hend hearly := by
    obtain ⟨wait, hwait, -, hopens⟩ := h.exists_waitAt? id request timeout moves
    rw [outcomeAt?_eq_some_iff hwait] at hend
    rw [openedAt?_eq_some hwait, hopens.opened_of_error hend hearly]
  calledOff before after hnone hfired :=
    h.openedAt?_of_isCalledOff id request timeout hnone hfired after
  stalled moves time ended hstalls hend hlt := by
    obtain ⟨wait, e, now, hwait, hnot⟩ := h.exists_notBefore id request timeout hstalls
    rw [endedAt?, hwait] at hend
    rw [openedAt?_eq_some hwait, hnot.opened_of_endedAt? hend hlt]
  released moves hover := by
    obtain ⟨wait, hwait, -, hopens⟩ := h.exists_waitAt? id request timeout moves
    rw [stage?_eq_some hwait, Option.some.injEq] at hover
    obtain ⟨outcome, hend⟩ : ∃ outcome, wait.outcome? = some outcome :=
      Option.ne_none_iff_exists'.mp fun hnone => Wait.outcome?_eq_none_iff.mp hnone hover
    have hstream := hopens.stream_eq_none hend
    constructor
    · intro e he
      cases hwait.symm.trans he
      exact hstream
    · intro more
      rw [play_append, hwait]
      exact waitAt?_play_of_over hwait hend hstream
        ((begins_startWait w id request timeout).letsGo_play hwait) more

end Start

set_option maxRecDepth 10000 in
/-- The deadline comes while the call for the stream stalls, and later calls do not stall. -/
example : ((slowStreams.startWait "late" .node .secondNode (some 5)).play
    [.happen (.time 20), .happen (.subscriptionsSlow 0), .happen (.time 20)]).openedAt? 0 =
      some 0 := by
  decide +kernel

/-! ## Counting -/

section Counting

variable {w : World}

/-- Each wait counts at most once among the streams that were opened. -/
private theorem Opens.accountStreamsOpened_eq (h : w.Opens) :
    w.accountStreamsOpened = {n | w.openedAt? n = some 1}.ncard := by
  have hcount (start : Nat) (entries : List WaitEntry) (hall : ∀ e ∈ entries, e.wait.wait.Opens) :
      entries.foldl (fun count e => count + e.wait.wait.opened) start =
        start + entries.countP fun e => e.wait.wait.opened == 1 := by
    induction entries generalizing start with
    | nil => rfl
    | cons e entries ih =>
      obtain ⟨he, hentries⟩ := List.forall_mem_cons.mp hall
      have hle := he.le_one
      rw [List.foldl_cons, ih _ hentries, List.countP_cons]
      by_cases hone : e.wait.wait.opened = 1
      · rw [hone, if_pos (beq_self_eq_true 1)]
        omega
      · rw [if_neg (by simpa using hone)]
        omega
  rw [World.accountStreamsOpened, hcount 0 w.waits h, Nat.zero_add, countP_eq_ncard]
  congr 1
  ext n
  simp [openedAt?, waitAt?]

/-- With nothing left to do, the waits that have a stream are those that go on and have opened
one. -/
private theorem Opens.accountStreams_settle (h : w.Opens) :
    w.settle.accountStreams =
      {n | w.settle.outcomeAt? n = none ∧ w.settle.openedAt? n = some 1}.ncard := by
  have hstreaming : ∀ e ∈ w.settle.waits, e.wait.wait.isStreaming = true ↔
      (!e.wait.wait.isFinished && e.wait.wait.opened == 1) = true := by
    intro e he
    rw [settle_eq] at he
    obtain ⟨e', he', rfl⟩ := List.mem_map.mp he
    exact Bool.eq_iff_iff.mp ((h e' he').isStreaming_turn w.surroundings)
  rw [World.accountStreams, List.countP_congr hstreaming, countP_eq_ncard]
  congr 1
  ext n
  rw [Set.mem_ofPred_eq, Set.mem_ofPred_eq, openedAt?, outcomeAt?, waitAt?]
  cases w.settle.waits.reverse[n]? with
  | none => simp
  | some e => simp [Wait.isFinished_eq_isSome]

private theorem logStreams_settle (hfeeds : w.feeds = []) (moves : List Move) :
    (w.play moves).settle.logStreams = {n | ∃ k : w.KeptFeed moves n, k.Survives}.ncard := by
  rw [logStreams, countP_eq_ncard]
  congr 1
  ext n
  rw [Set.mem_ofPred_eq, Set.mem_ofPred_eq, ← isStreaming_settle_iff hfeeds]
  simp [feedAt?]

end Counting

/-- Where the streams are after some moves of a world in which nothing goes on at first. -/
structure StreamsAccounted (w : World) (moves : List Move) : Prop where
  /-- With nothing left to do, each stream of accounts is that of a wait that goes on and has opened
  one. -/
  accountStreams : (w.play moves).settle.accountStreams =
    {n | (w.play moves).settle.outcomeAt? n = none ∧
      (w.play moves).settle.openedAt? n = some 1}.ncard
  /-- So far each wait has opened one stream of accounts at most. -/
  accountStreamsOpened : (w.play moves).accountStreamsOpened =
    {n | (w.play moves).openedAt? n = some 1}.ncard
  /-- With nothing left to do, each stream of logs is that of a feed that was kept and whose
  receiver has not failed. -/
  logStreams : (w.play moves).settle.logStreams =
    {n | ∃ k : w.KeptFeed moves n, k.Survives}.ncard
  /-- Each wait that starts opens one stream in all at most, and lets go of it at its end. -/
  opensOnce : ∀ before id kind request timeout after,
    moves = before ++ .happen (.wait id kind request timeout) :: after →
    (w.play before).OpensOnce ((w.play before).startWait id kind request timeout)
      (w.play before).waits.length request

theorem streamsAccounted_play {w : World} (hwaits : w.waits = []) (hfeeds : w.feeds = [])
    (moves : List Move) : w.StreamsAccounted moves := by
  have hopens (moves : List Move) : (w.play moves).Opens :=
    Opens.play (by simp [Opens, hwaits]) moves
  constructor
  case accountStreams => exact (hopens moves).accountStreams_settle
  case accountStreamsOpened => exact (hopens moves).accountStreamsOpened_eq
  case logStreams => exact logStreams_settle hfeeds moves
  case opensOnce =>
    intro before id kind request timeout after _
    exact opensOnce_startWait (hopens before) id request timeout

end World

/-! ## A receiver that fails -/

/-- A wait for a node, and two feeds of a session. The receiver of the first fails at an event. -/
def Move.oneFailing : List Move :=
  [.happen (.wait "node" .node .secondNode none),
    .happen (.subscribe "failing" (.session 1) false (some 1)),
    .happen (.subscribe "lasting" (.session 1) false none),
    .happen (.logs World.claim)]

namespace World

set_option maxRecDepth 10000 in
theorem streamsAccounted_oneFailing :
    (following.play Move.oneFailing).settle.accountStreams = 1 ∧
      (following.play Move.oneFailing).settle.logStreams = 1 ∧
      {n | ∃ k : following.KeptFeed Move.oneFailing n, k.Survives}.ncard = 1 := by
  have haccounted := streamsAccounted_play (w := following) rfl rfl Move.oneFailing
  have hlogs : (following.play Move.oneFailing).settle.logStreams = 1 := by decide +kernel
  exact ⟨by decide +kernel, hlogs, haccounted.logStreams.symm.trans hlogs⟩

/-- A feed whose receiver fails at the first event is opened, and an event is reported. -/
def failsAtOnce : List Move :=
  [.happen (.subscribe "failing" (.session 1) false (some 1)), .happen (.logs claim)]

/-- Nothing is done to that feed. -/
def keptAtOnce : following.KeptFeed failsAtOnce 0 where
  before := []
  id := "failing"
  scope := .session 1
  asks := false
  failsAt := some 1
  after := [.happen (.logs claim)]
  opened := following.act (.happen (.subscribe "failing" (.session 1) false (some 1)))
  moves_eq := rfl
  subscribe_eq := rfl
  number_eq := rfl
  not_cancelled := by
    rintro ⟨before, m, after, heq, hcancels⟩
    have hm : m ∈ [Move.happen (.logs claim)] :=
      heq ▸ List.mem_append_right before List.mem_cons_self
    cases List.mem_singleton.mp hm
    cases hcancels
  not_ended := rfl

set_option maxRecDepth 10000 in
/-- The stream of a feed is freed when its receiver fails, although the feed is kept. -/
theorem not_forall_logStreams_eq_ncard :
    ¬ ∀ (w : World) (moves : List Move), w.waits = [] → w.feeds = [] →
      (w.play moves).settle.logStreams = {n | Nonempty (w.KeptFeed moves n)}.ncard := by
  intro h
  have hcount := h following failsAtOnce rfl rfl
  have hnone : (following.play failsAtOnce).settle.logStreams = 0 := by decide +kernel
  have hfinite : {n | Nonempty (following.KeptFeed failsAtOnce n)}.Finite := by
    refine (Set.finite_lt_nat (following.play failsAtOnce).settle.feeds.length).subset ?_
    rintro n ⟨k⟩
    exact k.lt_length
  rw [hnone, eq_comm, Set.ncard_eq_zero hfinite] at hcount
  exact Set.eq_empty_iff_forall_notMem.mp hcount 0 ⟨keptAtOnce⟩

end World

end ComputeNet
