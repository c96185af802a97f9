import ComputeNet.Proofs.Status.Filters
import ComputeNet.Proofs.Wait.Answer

/-!
# Changes that a wait overlooks

A wait lists the accounts first and opens its stream afterwards. An account that is stored in
between is neither listed nor reported (`Overlooked`). Every other account that stands in the ledger
while the wait listens has been shown to it (`Begins.change_mem_of_not_overlooked`). So a wait that
listens, with nothing left to do, has what it waits for in the ledger exactly if some target is
shown by overlooked accounts only (`fulfilled_iff_overlooked`).
-/

namespace ComputeNet

namespace Wait

variable {α σ : Type} [Enumeration σ] [DecidableEq σ]

/-- A wait that listens on has looked at all that has come, and its stream has not ended. -/
theorem listen_quiet (s : Surroundings) (w : Wait α σ) (hstage : (w.listen s).stage = .listening)
    {stream : AccountStream} (hstream : (w.listen s).stream = some stream) :
    stream.pending = [] ∧ stream.closed = false := by
  obtain ⟨request, deadline, phase, stream?, opened, ownFired⟩ := w
  cases phase with
  | listening found =>
    cases stream? with
    | none => cases hstream
    | some stream' =>
      simp only [listen] at hstage hstream
      split at hstage
      · cases hstage
      next hmore =>
        rw [if_neg hmore] at hstream
        by_cases hclosed : stream'.closed = true
        · rw [if_pos hclosed] at hstage
          cases hstage
        · rw [if_neg hclosed] at hstream
          cases hstream
          exact ⟨rfl, Bool.not_eq_true _ ▸ hclosed⟩
  | _ => cases hstage

theorem poll_quiet (s : Surroundings) (w : Wait α σ) (hstage : (w.poll s).stage = .listening)
    {stream : AccountStream} (hstream : (w.poll s).stream = some stream) :
    stream.pending = [] ∧ stream.closed = false := by
  rw [poll, expire] at hstage hstream
  split at hstage
  · cases hstage
  next hon =>
    rw [if_neg hon] at hstream
    exact listen_quiet s _ hstage hstream

theorem turn_quiet (s : Surroundings) (w : Wait α σ) (hstage : (w.turn s).stage = .listening)
    {stream : AccountStream} (hstream : (w.turn s).stream = some stream) :
    stream.pending = [] ∧ stream.closed = false := by
  rw [turn, stage_letGo] at hstage
  rw [turn, letGo_stream] at hstream
  exact poll_quiet s w hstage hstream

end Wait

/-- Some of the targets, or each of them, have a property: as many as the wait asks for. -/
def WaitRequest.Fulfilled {α σ : Type} (r : WaitRequest α σ) (holds : EntityKey → Prop) : Prop :=
  match r.mode with
  | .first => ∃ key ∈ r.targets, holds key
  | .all => ∀ key ∈ r.targets, holds key

/-- The account shows what a key stands for with the wanted status. -/
def WaitRequest.Shows {kind : EntityKind} (r : WaitRequest kind.Record kind.Status)
    (account : RawAccount) (key : EntityKey) : Prop :=
  ∃ a, r.watch.observe r.status account.address account.data = some (key, a) ∧ kind.Bound a

namespace World

/-- The account was stored after the `n`-th wait had its listing and before it had its stream, and
it stands there since. -/
def Overlooked (w : World) (n : Nat) (moves : List Move) (account : RawAccount) : Prop :=
  ∃ before after, moves = before ++ .happen (.account account) :: after ∧
    Move.Spares after account.address ∧ (w.play before).stage? n = some .subscribing

/-- After some moves the `n`-th wait listens to an open stream. -/
structure ListensTo (w : World) (n : Nat) {kind : EntityKind} (moves : List Move)
    (wait : Wait kind.Record kind.Status) (stream : AccountStream) : Prop where
  waitAt? : (w.play moves).waitAt? n = some ⟨kind, wait⟩
  stage : wait.stage = .listening
  stream_eq : wait.stream = some stream
  opened : stream.closed = false

variable {kind : EntityKind} {w : World} {n : Nat} {request : WaitRequest kind.Record kind.Status}
  {moves : List Move}

/-- What a wait that listens has been told is not enough, and its stream is open. -/
theorem Begins.not_enough_of_listening (h : w.Begins n request)
    (hstage : (w.play moves).settle.stage? n = some .listening) :
    ∃ (wait : Wait kind.Record kind.Status) (stream : AccountStream) (listed : List RawAccount)
      (j : Nat), w.ListensTo n (moves ++ [.settle]) wait stream ∧
      w.ListsWith n request.filters (moves ++ [.settle]) j listed ∧
      ¬ request.Enough (request.sightings (listed.map RawAccount.change ++
        w.arrivals n (moves ++ [.settle]))) := by
  obtain ⟨before, -, hbefore, -⟩ := h.informed_play moves
  obtain ⟨wait, listed?, hwait, hrequest, hinformed, hlisted⟩ :=
    h.informed_play (moves ++ [.settle])
  have hsettle : (w.play moves).settle.waitAt? n = some ⟨kind, wait⟩ := by
    rw [play_append] at hwait
    exact hwait
  have hlistening : wait.stage = .listening := by
    rw [stage?_eq_some hsettle] at hstage
    exact Option.some.inj hstage
  obtain ⟨stream, listed, seen, hstream, -, rfl, harrived, hmore⟩ :=
    hinformed.exists_stream hlistening
  obtain ⟨j, hlists⟩ := hlisted listed rfl
  have hquiet : stream.pending = [] ∧ stream.closed = false := by
    rw [waitAt?_settle, hbefore] at hsettle
    cases hsettle
    exact Wait.turn_quiet _ before hlistening hstream
  refine ⟨wait, stream, listed, j, ⟨hwait, hlistening, hstream, hquiet.2⟩, hlists, ?_⟩
  rw [harrived, hquiet.1, List.append_nil, ← hrequest]
  exact hmore

/-- A wait that listens, and whose stream is open later on, hears of all that its filters accept. -/
theorem Begins.hears_of_listening (h : w.Begins n request) {before after : List Move}
    {wait : Wait kind.Record kind.Status} {stream : AccountStream}
    (hbefore : (w.play before).stage? n = some .listening)
    (hlistens : w.ListensTo n (before ++ after) wait stream) {data : Bytes}
    (hdata : Filter.allAccept request.filters data = true) :
    ∃ e, (w.play before).waitAt? n = some e ∧ e.wait.hears data = true := by
  obtain ⟨earlier, listed, hearlier, rfl, hinformed, -⟩ := h.informed_play before
  rw [stage?_eq_some hearlier, Option.some.injEq] at hbefore
  obtain ⟨stream', -, -, hstream', hfilters, -⟩ := hinformed.exists_stream hbefore
  obtain ⟨later, hlater, hfollows⟩ := follows_play hearlier after
  rw [← play_append, hlistens.waitAt?] at hlater
  cases hlater
  obtain ⟨stream'', hstream'', -, hclosed⟩ :=
    hfollows.stream hbefore hlistens.stage stream hlistens.stream_eq
  rw [hstream'] at hstream''
  cases hstream''
  have hopen : stream'.closed = false := by
    by_contra hend
    have hended := hclosed (Bool.of_not_eq_false hend)
    rw [hlistens.opened] at hended
    cases hended
  refine ⟨_, hearlier, ?_⟩
  simp [Wait.hears, hstream', hopen, Filter.allAccept_of_subset hfilters hdata]

/-- An account that stood in the ledger when a listing ended is listed if it passes the filters. -/
theorem ListsWith.mem {j : Nat} {filters : List Filter} {listed : List RawAccount}
    (h : w.ListsWith n filters moves j listed) {account : RawAccount}
    (haccount : account ∈ (w.play (moves.take j)).accounts)
    (hdata : Filter.allAccept filters account.data = true) : account ∈ listed := by
  refine (Endpoint.mem_listing_iff h.listing).mpr ⟨haccount, ?_⟩
  exact Filter.allAccept_of_subset (Endpoint.effective_subset _ filters) hdata

/-- Moves before which the listing has not been answered are among those up to its answer. -/
private theorem ListsWith.length_lt {j : Nat} {filters : List Filter} {listed : List RawAccount}
    (h : w.ListsWith n filters moves j listed) {e : EntityWait} (he : w.waitAt? n = some e)
    {before after : List Move} (hmoves : moves = before ++ after)
    (hbefore : (w.play before).stage? n = some .listing) : before.length < j := by
  by_contra hle
  apply h.after
  obtain ⟨kind, wait⟩ := e
  obtain ⟨wait', h', -⟩ := follows_play he (before.take j)
  obtain ⟨wait'', h'', hfollows⟩ := follows_play h' (before.drop j)
  rw [← play_append, List.take_append_drop] at h''
  rw [stage?_eq_some h'', Option.some.injEq] at hbefore
  rw [hmoves, List.take_append_of_le_length (Nat.not_lt.mp hle), stage?_eq_some h',
    hfollows.stage_eq_listing hbefore]

/-- A wait that listens has been shown every account in the ledger that passes its filters and that
it has not overlooked. -/
theorem Begins.change_mem_of_not_overlooked (h : w.Begins n request)
    {wait : Wait kind.Record kind.Status} {stream : AccountStream} {listed : List RawAccount}
    {j : Nat} (hlistens : w.ListensTo n (moves ++ [.settle]) wait stream)
    (hlists : w.ListsWith n request.filters (moves ++ [.settle]) j listed) {account : RawAccount}
    (haccount : account ∈ (w.play moves).accounts)
    (hdata : Filter.allAccept request.filters account.data = true)
    (hnot : ¬ w.Overlooked n moves account) :
    account.change ∈ listed.map RawAccount.change ++ w.arrivals n (moves ++ [.settle]) := by
  obtain ⟨⟨kind', start⟩, hstart⟩ := h.exists_waitAt?
  have hlisted (hstood : account ∈ (w.play ((moves ++ [Move.settle]).take j)).accounts) :
      account.change ∈ listed.map RawAccount.change ++ w.arrivals n (moves ++ [.settle]) :=
    List.mem_append_left _ (List.mem_map_of_mem (hlists.mem hstood hdata))
  have hsettle {after : List Move} (hspares : Move.Spares after account.address) :
      Move.Spares (after ++ [.settle]) account.address := by
    intro a ha
    rcases List.mem_append.mp ha with ha | ha
    · exact hspares a ha
    · cases List.mem_singleton.mp ha
  rcases (mem_accounts_play_iff w).mp haccount with
    ⟨hfirst, hspares⟩ | ⟨before, after, rfl, hspares⟩
  · -- It was there at first, so that it stood there when the listing ended.
    apply hlisted
    refine (mem_accounts_play_iff w).mpr (Or.inl ⟨hfirst, ?_⟩)
    intro a ha
    exact hsettle hspares a (List.mem_of_mem_take ha)
  · -- It has been stored: what counts is how far the wait was then.
    rw [List.append_assoc, List.cons_append] at hlists hlistens hlisted ⊢
    obtain ⟨middle, hmiddle, -⟩ := follows_play hstart before
    have hphase := stage?_eq_some hmiddle
    cases hstage : middle.stage with
    | listing =>
      rw [hstage] at hphase
      have hlt := hlists.length_lt hstart rfl hphase
      obtain ⟨i, rfl⟩ : ∃ i, j = before.length + (i + 1) := ⟨j - before.length - 1, by omega⟩
      apply hlisted
      rw [List.take_length_add_append, List.take_succ_cons]
      refine (mem_accounts_play_iff w).mpr (Or.inr ⟨before, _, rfl, ?_⟩)
      intro a ha
      exact hsettle hspares a (List.mem_of_mem_take ha)
    | subscribing =>
      rw [hstage] at hphase
      exact absurd ⟨before, after, rfl, hspares, hphase⟩ hnot
    | listening =>
      rw [hstage] at hphase
      obtain ⟨e, he, hhears⟩ := h.hears_of_listening hphase hlistens hdata
      exact List.mem_append_right _ (mem_arrivals he hhears)
    | finished =>
      have hgoes : (w.play (before ++ .happen (.account account) ::
          (after ++ [.settle]))).stage? n ≠ some .finished := by
        rw [stage?_eq_some hlistens.waitAt?, hlistens.stage]
        decide
      have hend := stage?_take_ne_finished hstart hgoes before.length
      rw [List.take_left, hphase, hstage] at hend
      exact absurd rfl hend

/-- A wait that listens, with nothing left to do, has what it waits for in the ledger exactly if
some target is shown there by overlooked accounts only, and, where it waits for all targets, each is
shown. -/
theorem fulfilled_iff_overlooked {id : String} {timeout : Option UInt64}
    (keyOf : kind.Record → Option EntityKey) (hwatch : request.watch = { kind.watch with keyOf })
    (hstage : ((w.startWait id kind request timeout).play moves).settle.stage? w.waits.length =
      some .listening) :
    request.Fulfilled (fun key => ∃ account ∈
        ((w.startWait id kind request timeout).play moves).settle.accounts,
      request.Shows account key) ↔
    (∃ key ∈ request.targets,
      (∃ account ∈ ((w.startWait id kind request timeout).play moves).settle.accounts,
        request.Shows account key) ∧
      ∀ account ∈ ((w.startWait id kind request timeout).play moves).settle.accounts,
        request.Shows account key →
        (w.startWait id kind request timeout).Overlooked w.waits.length moves account) ∧
    (request.mode = .all → ∀ key ∈ request.targets,
      ∃ account ∈ ((w.startWait id kind request timeout).play moves).settle.accounts,
        request.Shows account key) := by
  have hbegins := begins_startWait w id request timeout
  obtain ⟨wait, stream, listed, j, hlistens, hlists, hmore⟩ :=
    hbegins.not_enough_of_listening hstage
  rw [accounts_settle]
  -- What a target is shown by has been seen, unless it was overlooked.
  have hseen (key : EntityKey) (hkey : key ∈ request.targets) (account : RawAccount)
      (haccount : account ∈ ((w.startWait id kind request timeout).play moves).accounts)
      (hshows : request.Shows account key)
      (hnot : ¬ (w.startWait id kind request timeout).Overlooked w.waits.length moves account) :
      ∃ a, (key, a) ∈ request.sightings (listed.map RawAccount.change ++
        (w.startWait id kind request timeout).arrivals w.waits.length (moves ++ [.settle])) := by
    obtain ⟨a, hobserve, hbound⟩ := hshows
    obtain ⟨hdecode, hstatus, -⟩ := Watch.observe_eq_some_iff.mp hobserve
    have hdata : Filter.allAccept request.filters account.data = true := by
      rw [hwatch] at hdecode hstatus
      rw [WaitRequest.filters, hwatch, ← hstatus]
      exact kind.allAccept_filters hdecode hbound
    refine ⟨a, request.mem_sightings_iff.mpr ⟨hkey, account.change, ?_, hobserve⟩⟩
    exact hbegins.change_mem_of_not_overlooked hlistens hlists haccount hdata hnot
  cases hmode : request.mode with
  | first =>
    simp only [WaitRequest.Enough, WaitRequest.Fulfilled, hmode, reduceCtorEq, false_implies,
      and_true] at hmore ⊢
    constructor
    · rintro ⟨key, hkey, hshown⟩
      refine ⟨key, hkey, hshown, ?_⟩
      intro account haccount hshows
      by_contra hnot
      obtain ⟨a, ha⟩ := hseen key hkey account haccount hshows hnot
      exact hmore fun hnil => List.ne_nil_of_mem ha hnil
    · rintro ⟨key, hkey, hshown, -⟩
      exact ⟨key, hkey, hshown⟩
  | all =>
    simp only [WaitRequest.Enough, WaitRequest.Fulfilled, hmode, true_implies] at hmore ⊢
    constructor
    · intro hall
      refine ⟨?_, hall⟩
      push Not at hmore
      obtain ⟨key, hkey, hunseen⟩ := hmore
      refine ⟨key, hkey, hall key hkey, ?_⟩
      intro account haccount hshows
      by_contra hnot
      obtain ⟨a, ha⟩ := hseen key hkey account haccount hshows hnot
      exact hunseen a ha
    · exact fun h => h.2

end World

/-! ## A node that is overlooked -/

/-- A network in which it takes time to open a stream. -/
def World.slowStreams : World where
  client := { program := .replicate 32 100, network := .replicate 32 101, canSubscribe := true }
  endpoint := { subscribeDelay := 10 }

/-- Asks for node 2 to be active. -/
def WaitRequest.secondNode : WaitRequest EntityKind.node.Record EntityKind.node.Status where
  watch := NodeInfo.watch
  targets := [.address (.replicate 32 2)]
  status := NodeStatus.active
  mode := .first
  token := none

/-- Node 2 becomes active while the stream is being opened. -/
def Move.nodeMeanwhile : List Move :=
  [.happen (.account ((NodeInfo.plain (.replicate 32 2) .active).storedAt (.replicate 32 12))),
    .happen (.time 10)]

namespace World

set_option maxRecDepth 10000 in
theorem slowStreams_stage? :
    ((slowStreams.startWait "late" .node .secondNode (some 1000)).play
      Move.nodeMeanwhile).settle.stage? 0 = some .listening := by
  decide +kernel

set_option maxRecDepth 10000 in
/-- The account of node 2 stands in the ledger, and the wait for it goes on. -/
theorem slowStreams_fulfilled :
    WaitRequest.secondNode.Fulfilled fun key => ∃ account ∈
      ((slowStreams.startWait "late" .node .secondNode (some 1000)).play
        Move.nodeMeanwhile).settle.accounts,
      WaitRequest.Shows WaitRequest.secondNode account key := by
  refine ⟨.address (.replicate 32 2), by decide, ?_⟩
  refine ⟨(NodeInfo.plain (.replicate 32 2) .active).storedAt (.replicate 32 12), ?_, ?_⟩
  · rw [accounts_settle, mem_accounts_play_iff]
    exact Or.inr ⟨[], [.happen (.time 10)], rfl, by simp [Move.Spares]⟩
  · exact ⟨NodeInfo.plain (.replicate 32 2) .active, rfl, trivial⟩

theorem not_forall_not_fulfilled :
    ¬ ∀ (w : World) (id : String) (kind : EntityKind)
      (request : WaitRequest kind.Record kind.Status) (timeout : Option UInt64)
      (moves : List Move), request.watch = kind.watch →
      ((w.startWait id kind request timeout).play moves).settle.stage? w.waits.length =
        some .listening →
      ¬ request.Fulfilled fun key => ∃ account ∈
          ((w.startWait id kind request timeout).play moves).settle.accounts,
        request.Shows account key := by
  intro h
  exact h slowStreams "late" .node .secondNode (some 1000) Move.nodeMeanwhile rfl
    slowStreams_stage? slowStreams_fulfilled

theorem fulfilled_iff_overlooked_slowStreams :
    ((slowStreams.startWait "late" .node .secondNode (some 1000)).play
      Move.nodeMeanwhile).settle.stage? 0 = some .listening ∧
    ∃ key ∈ WaitRequest.secondNode.targets, ∀ account ∈
      ((slowStreams.startWait "late" .node .secondNode (some 1000)).play
        Move.nodeMeanwhile).settle.accounts,
      WaitRequest.Shows WaitRequest.secondNode account key →
      (slowStreams.startWait "late" .node .secondNode (some 1000)).Overlooked 0
        Move.nodeMeanwhile account := by
  have hiff := fulfilled_iff_overlooked EntityKind.node.watch.keyOf rfl slowStreams_stage?
  obtain ⟨⟨key, hkey, -, hoverlooked⟩, -⟩ := hiff.mp slowStreams_fulfilled
  exact ⟨slowStreams_stage?, key, hkey, hoverlooked⟩

end World

end ComputeNet
