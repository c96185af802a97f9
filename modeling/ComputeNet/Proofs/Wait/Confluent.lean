import ComputeNet.Proofs.Wait.Failures
import ComputeNet.Proofs.Wait.Overlooked
import ComputeNet.Proofs.Wait.Sifted

/-!
# In which order targets reach a status

A wait for all of its targets, each of which is shown with the wanted status by one version of one
account, does not depend on which of these versions stood in the ledger when it began, nor on the
order in which the others are stored once it listens. It ends well with the last of them, whatever
else is stored in between, and its answer is in the order of the targets (`endsWithLast_startWait`).
What has been found so far is known from the versions that have arrived (`inOrder_of_outcomeAt?`),
and those that have arrived have been seen (`Begins.exists_sighting`).
-/

namespace ComputeNet

namespace Found

variable {α : Type}

private theorem lookup_filter_ne (found : Found α) {key other : EntityKey} (hne : other ≠ key) :
    List.lookup other (found.filter (·.1 ≠ key)) = found.lookup other := by
  induction found with
  | nil => rfl
  | cons p found ih =>
    by_cases hp : p.1 = key
    · rw [List.filter_cons_of_neg (by simpa using hp), ih, List.lookup_cons,
        beq_eq_false_iff_ne.mpr (hp ▸ hne)]
    · rw [List.filter_cons_of_pos (by simpa using hp), List.lookup_cons, List.lookup_cons, ih]

/-- If there is a record for each of some keys, the records in their order are just these. -/
private theorem inOrder_eq_map {found : Found α} {keys : List EntityKey} {record : EntityKey → α}
    (hnodup : keys.Nodup) (h : ∀ key ∈ keys, found.lookup key = some (record key)) :
    found.inOrder keys = keys.map record := by
  induction keys generalizing found with
  | nil => rfl
  | cons key keys ih =>
    obtain ⟨hkey, hnodup⟩ := List.nodup_cons.mp hnodup
    have hrest : inOrder (found.filter (·.1 ≠ key)) keys = keys.map record := by
      apply ih hnodup
      intro other hother
      have hne : other ≠ key := fun heq => hkey (heq ▸ hother)
      rw [lookup_filter_ne found hne]
      exact h other (List.mem_cons_of_mem key hother)
    rw [inOrder, h key List.mem_cons_self]
    exact congrArg (record key :: ·) hrest

end Found

/-- Background work is not among the things that happen. -/
theorem Move.happen_mem_concat_settle {h : World.Happening} {moves : List Move} :
    .happen h ∈ moves ++ [.settle] ↔ .happen h ∈ moves := by
  simp

/-- Each of the targets is shown with the wanted status, and with its record, by one version of an
account, and by no other account that stands among the given ones or that a move stores. -/
structure WaitRequest.Versions {kind : EntityKind} (r : WaitRequest kind.Record kind.Status)
    (accounts : List RawAccount) (moves : List Move) (version : EntityKey → RawAccount)
    (record : EntityKey → kind.Record) : Prop where
  targets_ne_nil : r.targets ≠ []
  nodup : r.targets.Nodup
  shows : ∀ key ∈ r.targets, r.sight (version key).change = some (key, record key)
  only : ∀ account, account ∈ accounts ∨ .happen (.account account) ∈ moves →
    ∀ key a, r.sight account.change = some (key, a) → account = version key

private theorem WaitRequest.Versions.of_stored {kind : EntityKind}
    {r : WaitRequest kind.Record kind.Status} {accounts : List RawAccount}
    {moves moves' : List Move} {version : EntityKey → RawAccount} {record : EntityKey → kind.Record}
    (h : r.Versions accounts moves version record)
    (hstored : ∀ account, .happen (.account account) ∈ moves' →
      .happen (.account account) ∈ moves) : r.Versions accounts moves' version record :=
  { h with only := fun account haccount => h.only account (haccount.imp_right (hstored account)) }

namespace World

/-- Nothing hinders a wait while some moves go on: its deadline does not come, nobody calls it off,
the endpoint ends no streams and serves the calls of the wait. -/
structure Unhindered (w : World) {kind : EntityKind} (request : WaitRequest kind.Record kind.Status)
    (deadline : Option Nat) (moves : List Move) : Prop where
  means : w.client.canSubscribe = true
  quiet : request.isCalledOff (w.play moves).fired = false
  ahead : ∀ time, deadline = some time → (w.play moves).now < time
  kept : .happen .streamsClose ∉ moves
  served : ∀ before, before <+: moves →
    (w.play before).endpoint.serve .getProgramAccounts = .ok () ∧
      (w.play before).endpoint.serve .programSubscribe = .ok ()

/-- With the moves the `n`-th wait opens its stream, or it is over without one. No version of a
target is stored meanwhile. -/
structure Registers (w : World) (n : Nat) (targets : List EntityKey)
    (version : EntityKey → RawAccount) (opening : List Move) : Prop where
  stage : (w.play opening).stage? n = some .listening ∨ (w.play opening).stage? n = some .finished
  gap : ∀ key ∈ targets, .happen (.account (version key)) ∉ opening

/-- No other account is stored at the address of an account before the listing of the `n`-th wait is
answered. -/
def StandsUntilListed (w : World) (n : Nat) (opening : List Move) (account : RawAccount) : Prop :=
  ∀ before other, before ++ [.happen (.account other)] <+: opening →
    (w.play before).stage? n = some .listing → other.address ≠ account.address

/-- The records with which the `n`-th wait has ended, in the order of its targets. -/
def recordsAt? (w : World) (n : Nat) :
    Option ((kind : EntityKind) × Except ClientError (List kind.Record)) :=
  (w.waitAt? n).bind fun e => e.wait.records?.map fun records => ⟨e.kind, records⟩

/-- The version of a target stood in the ledger at first, or it has been stored. -/
def HasArrived (w : World) (version : EntityKey → RawAccount) (moves : List Move)
    (key : EntityKey) : Prop :=
  version key ∈ w.accounts ∨ .happen (.account (version key)) ∈ moves

/-- The `n`-th wait of a world `w'`, which was started in the world `w`, ends well with the move
that brings the last of the versions, and with the records of the versions in the order of the
targets. -/
structure EndsWithLast (w w' : World) (n : Nat) {kind : EntityKind} (targets : List EntityKey)
    (version : EntityKey → RawAccount) (record : EntityKey → kind.Record)
    (opening later : List Move) : Prop where
  ended : ∀ soon, soon <+: later → (∀ key ∈ targets, w.HasArrived version soon key) →
    (w'.play (opening ++ soon)).settle.recordsAt? n = some ⟨kind, .ok (targets.map record)⟩
  pending : ∀ soon, soon <+: later → ¬ (∀ key ∈ targets, w.HasArrived version soon key) →
    (w'.play (opening ++ soon)).settle.recordsAt? n = none

variable {kind : EntityKind} {w : World} {n : Nat} {request : WaitRequest kind.Record kind.Status}
  {deadline : Option Nat} {moves : List Move}

theorem play_settle (w : World) (moves : List Move) :
    (w.play moves).settle = w.play (moves ++ [.settle]) :=
  (play_concat w moves .settle).symm

/-! ## No hindrance -/

private theorem now_le_play (w : World) (moves : List Move) : w.now ≤ (w.play moves).now := by
  induction moves generalizing w with
  | nil => exact Nat.le_refl _
  | cons m moves ih =>
    obtain ⟨polls, hpolls, -⟩ := waitAt?_act_spans w m
    exact Nat.le_trans hpolls.le (ih (w.act m))

private theorem isCalledOff_of_prefix {before : List Move} (hbefore : before <+: moves)
    (h : request.isCalledOff (w.play moves).fired = false) :
    request.isCalledOff (w.play before).fired = false := by
  obtain ⟨after, rfl⟩ := hbefore
  by_contra hfired
  rw [Bool.not_eq_false] at hfired
  have hlater := isCalledOff_play hfired after
  rw [← play_append, h] at hlater
  cases hlater

theorem Unhindered.of_prefix (h : w.Unhindered request deadline moves) {before : List Move}
    (hbefore : before <+: moves) : w.Unhindered request deadline before where
  means := h.means
  quiet := isCalledOff_of_prefix hbefore h.quiet
  ahead time htime := by
    have hlt := h.ahead time htime
    obtain ⟨after, rfl⟩ := hbefore
    rw [play_append] at hlt
    exact Nat.lt_of_le_of_lt (now_le_play _ after) hlt
  kept hclose := h.kept (hbefore.subset hclose)
  served earlier hearlier := h.served earlier (hearlier.trans hbefore)

/-- Background work hinders no wait. -/
theorem Unhindered.settle (h : w.Unhindered request deadline moves) :
    w.Unhindered request deadline (moves ++ [.settle]) where
  means := h.means
  quiet := by
    rw [play_concat, act, settle_fired]
    exact h.quiet
  ahead := by
    rw [play_concat, act, settle_now]
    exact h.ahead
  kept hclose := h.kept (Move.happen_mem_concat_settle.mp hclose)
  served before hbefore := by
    rcases List.prefix_concat_iff.mp hbefore with rfl | hbefore
    · rw [play_concat, act, settle_endpoint]
      exact h.served moves (List.prefix_refl moves)
    · exact h.served before hbefore

/-- Nothing but a change of the faults changes how an endpoint departs from plain service. -/
private theorem faults_act (w : World) {m : Move} (hm : ∀ change, m ≠ .happen (.faults change)) :
    (w.act m).endpoint.faults = w.endpoint.faults := by
  rw [endpoint_act]
  cases m with
  | settle => rfl
  | happen h =>
    cases h with
    | faults change => exact absurd rfl (hm change)
    | _ => rfl

theorem serve_play {call : Call} (h : w.endpoint.serve call = .ok ())
    (hmoves : ∀ change, .happen (.faults change) ∉ moves) :
    (w.play moves).endpoint.serve call = .ok () := by
  induction moves generalizing w with
  | nil => exact h
  | cons m moves ih =>
    apply ih
    · rw [Endpoint.serve, faults_act w fun change heq => hmoves change (heq ▸ List.mem_cons_self)]
      exact h
    · exact fun change hchange => hmoves change (List.mem_cons_of_mem m hchange)

/-- The calls of a wait are served throughout if they are at first and the faults stay as they
are. -/
theorem served_of_faults_kept (hlisting : w.endpoint.serve .getProgramAccounts = .ok ())
    (hsubscribe : w.endpoint.serve .programSubscribe = .ok ())
    (hmoves : ∀ change, .happen (.faults change) ∉ moves) (before : List Move)
    (hbefore : before <+: moves) :
    (w.play before).endpoint.serve .getProgramAccounts = .ok () ∧
      (w.play before).endpoint.serve .programSubscribe = .ok () := by
  have hkept (change : FaultChange) : .happen (.faults change) ∉ before :=
    fun hchange => hmoves change (hbefore.subset hchange)
  exact ⟨serve_play hlisting hkept, serve_play hsubscribe hkept⟩

/-- A wait that is not hindered does not fail. -/
private theorem Unhindered.outcomeAt?_ne_error {id : String} {timeout : Option UInt64}
    (h : (w.startWait id kind request timeout).Unhindered request
      (w.client.wait w.now request timeout).deadline moves) (htargets : request.targets ≠ [])
    (e : ClientError) :
    ((w.startWait id kind request timeout).play moves).outcomeAt? w.waits.length ≠
      some ⟨kind, .error e⟩ := by
  intro hend
  obtain ⟨done, rest, rfl, -, hdemands⟩ := exists_demands w id request timeout hend
  have hdone := h.of_prefix (List.prefix_append done rest)
  obtain ⟨hlisting, hsubscribe⟩ := hdone.served done (List.prefix_refl done)
  cases hdemands with
  | means hcan => exact absurd (hcan.symm.trans hdone.means) (by decide)
  | targets _ hnil => exact htargets hnil
  | token hfired => exact absurd (hfired.symm.trans hdone.quiet) (by decide)
  | listing _ herror =>
    rw [Endpoint.listing, hlisting] at herror
    cases herror
  | subscribing _ _ _ herror => cases herror.symm.trans hsubscribe
  | stream _ hclose =>
    apply hdone.kept
    rw [hclose]
    exact List.mem_append_right _ List.mem_cons_self
  | deadline _ htime hle => exact Nat.not_le.mpr (hdone.ahead _ htime) hle

/-! ## What has been found has arrived -/

variable {version : EntityKey → RawAccount} {record : EntityKey → kind.Record}
  {opening more : List Move}

/-- What a wait is shown stood in the ledger at first, or it has been stored. -/
private theorem Begins.exists_account_of_mem (h : w.Begins n request) {listed : List RawAccount}
    {seen : List (Address × Bytes)} {j : Nat}
    (hlists : w.ListsWith n request.filters moves j listed) (hseen : seen <+: w.arrivals n moves)
    {c : Address × Bytes} (hc : c ∈ listed.map RawAccount.change ++ seen) :
    ∃ account : RawAccount, c = account.change ∧
      (account ∈ w.accounts ∨ .happen (.account account) ∈ moves) := by
  obtain ⟨account, rfl, k, -, -, hstands⟩ := h.standsDuring_of_mem hlists hseen hc
  refine ⟨account, rfl, ?_⟩
  rcases (mem_accounts_play_iff w).mp hstands with ⟨hfirst, -⟩ | ⟨before, after, htake, -⟩
  · exact Or.inl hfirst
  · right
    apply List.mem_of_mem_take (i := k)
    rw [htake]
    exact List.mem_append_right _ List.mem_cons_self

/-- A wait that ended well has the records of the versions, and all of these have arrived. -/
theorem Begins.inOrder_of_outcomeAt? (h : w.Begins n request) (hmode : request.mode = .all)
    (hversions : request.Versions w.accounts moves version record) {found : Found kind.Record}
    (hend : (w.play moves).outcomeAt? n = some ⟨kind, .ok found⟩) :
    found.inOrder request.targets = request.targets.map record ∧
      ∀ key ∈ request.targets, w.HasArrived version moves key := by
  obtain ⟨j, listed, seen, hlists, hseen, ⟨henough, -⟩, rfl⟩ := h.foundIn_of_outcomeAt? hend
  rw [WaitRequest.isComplete_foundIn_iff, WaitRequest.Enough, hmode] at henough
  have hsource {key : EntityKey} {a : kind.Record}
      (hmem : (key, a) ∈ request.sightings (listed.map RawAccount.change ++ seen)) :
      a = record key ∧ w.HasArrived version moves key := by
    obtain ⟨c, hc, hsight⟩ := List.mem_filterMap.mp hmem
    obtain ⟨account, rfl, horigin⟩ := h.exists_account_of_mem hlists hseen hc
    cases hversions.only account horigin key a hsight
    have htarget := (request.sight_eq_some_iff.mp hsight).1
    have hshows := hversions.shows key htarget
    rw [hsight, Option.some.injEq, Prod.mk.injEq] at hshows
    exact ⟨hshows.2, horigin⟩
  constructor
  · apply Found.inOrder_eq_map hversions.nodup
    intro key hkey
    rw [WaitRequest.lookup_foundIn]
    obtain ⟨a, ha⟩ := Option.isSome_iff_exists.mp (latest_isSome_iff.mpr (henough key hkey))
    rw [ha, (hsource (mem_of_latest ha)).1]
  · intro key hkey
    obtain ⟨a, ha⟩ := henough key hkey
    exact (hsource ha).2

/-! ## What has arrived has been seen -/

/-- An account that stood in the ledger at first is listed if it stood there until then. -/
private theorem ListsWith.mem_of_stands {j : Nat} {filters : List Filter} {listed : List RawAccount}
    (hlists : w.ListsWith n filters (opening ++ more) j listed)
    {wait : Wait kind.Record kind.Status} (hwait : (w.play opening).waitAt? n = some ⟨kind, wait⟩)
    (hstage : wait.stage ≠ .listing) {account : RawAccount} (haccount : account ∈ w.accounts)
    (hstands : w.StandsUntilListed n opening account)
    (hdata : Filter.allAccept filters account.data = true) : account ∈ listed := by
  apply hlists.mem _ hdata
  refine (mem_accounts_play_iff w).mpr (Or.inl ⟨haccount, ?_⟩)
  intro other hother
  obtain ⟨before, after, htake⟩ := List.append_of_mem hother
  have hlt : before.length < j := by
    have hlength := congrArg List.length htake
    rw [List.length_take, List.length_append, List.length_append, List.length_cons] at hlength
    omega
  have hmoves : before ++ [.happen (.account other)] <+: opening ++ more := by
    refine List.IsPrefix.trans ⟨after, ?_⟩ (List.take_prefix j (opening ++ more))
    rw [htake, List.append_assoc, List.singleton_append]
  have hlisting : (w.play before).stage? n = some .listing := by
    have hbefore := List.prefix_iff_eq_take.mp
      ((List.prefix_append before [.happen (.account other)]).trans hmoves)
    rw [hbefore]
    exact hlists.before _ hlt
  refine hstands before other ?_ hlisting
  rcases List.prefix_or_prefix_of_prefix hmoves (List.prefix_append opening more) with hle | hle
  · exact hle
  · rcases List.prefix_concat_iff.mp hle with rfl | ⟨between, rfl⟩
    · exact List.prefix_refl _
    · -- The wait was past its listing by then.
      obtain ⟨wait', hwait', hfollows⟩ := follows_play hwait between
      rw [← play_append] at hwait'
      rw [stage?_eq_some hwait', Option.some.injEq] at hlisting
      exact absurd (hfollows.stage_eq_listing hlisting) hstage

/-- Once it listens, a wait listens until it is over. -/
theorem Begins.stage?_eq_listening (h : w.Begins n request)
    (hopening : (w.play opening).stage? n = some .listening ∨
      (w.play opening).stage? n = some .finished)
    (hgoes : (w.play (opening ++ more)).stage? n ≠ some .finished) :
    (w.play (opening ++ more)).stage? n = some .listening := by
  obtain ⟨start, -, hstart, -⟩ := h.informed_play opening
  obtain ⟨last, hlast, hfollows⟩ := follows_play hstart more
  rw [← play_append] at hlast
  rw [stage?_eq_some hlast, ne_eq, Option.some.injEq] at hgoes
  rw [stage?_eq_some hstart, Option.some.injEq, Option.some.injEq] at hopening
  rw [stage?_eq_some hlast]
  have hle := hfollows.rank_le
  rw [hopening.resolve_right (hfollows.stage_ne_finished hgoes)] at hle
  cases hstage : last.stage with
  | listening => rfl
  | finished => exact absurd hstage hgoes
  | _ =>
    rw [hstage] at hle
    exact absurd hle (by decide)

/-- A wait that listens after some moves listens after the first of them as well, from its stream
on. -/
private theorem Begins.stage?_eq_listening_of_later (h : w.Begins n request)
    (hopening : (w.play opening).stage? n = some .listening ∨
      (w.play opening).stage? n = some .finished) {between rest : List Move}
    (hend : (w.play (opening ++ between ++ rest)).stage? n = some .listening) :
    (w.play (opening ++ between)).stage? n = some .listening := by
  obtain ⟨e, he⟩ := h.exists_waitAt?
  apply h.stage?_eq_listening hopening
  have hgoes : (w.play (opening ++ between ++ rest)).stage? n ≠ some .finished := by
    rw [hend]
    decide
  have hearlier := stage?_take_ne_finished he hgoes (opening ++ between).length
  rwa [List.take_left] at hearlier

/-- A wait that goes on has seen all versions that have arrived, so that these are not all. -/
private theorem Begins.not_forall_hasArrived (h : w.Begins n request) (hmode : request.mode = .all)
    {keyOf : kind.Record → Option EntityKey} (hwatch : request.watch = { kind.watch with keyOf })
    (hshows : ∀ key ∈ request.targets,
      request.sight (version key).change = some (key, record key))
    (hbound : ∀ key ∈ request.targets, kind.Bound (record key))
    (hregisters : w.Registers n request.targets version opening)
    (hstands : ∀ key ∈ request.targets, version key ∈ w.accounts →
      w.StandsUntilListed n opening (version key)) {soon : List Move}
    (hstage : (w.play (opening ++ soon)).settle.stage? n = some .listening) :
    ¬ ∀ key ∈ request.targets, w.HasArrived version soon key := by
  intro hall
  obtain ⟨wait, stream, listed, j, hlistens, hlists, hmore⟩ := h.not_enough_of_listening hstage
  have hend : (w.play (opening ++ soon ++ [.settle])).stage? n = some .listening := by
    rw [stage?_eq_some hlistens.waitAt?, hlistens.stage]
  apply hmore
  rw [WaitRequest.Enough, hmode]
  intro key hkey
  have hsight := hshows key hkey
  have hdata : Filter.allAccept request.filters (version key).data = true := by
    obtain ⟨hdecode, hstatus, -⟩ :=
      Watch.observe_eq_some_iff.mp (request.sight_eq_some_iff.mp hsight).2
    rw [hwatch] at hdecode hstatus
    rw [WaitRequest.filters, hwatch, ← hstatus]
    exact kind.allAccept_filters hdecode (hbound key hkey)
  refine ⟨record key, List.mem_filterMap.mpr ⟨(version key).change, ?_, hsight⟩⟩
  rcases hall key hkey with hfirst | hstored
  · apply List.mem_append_left
    apply List.mem_map_of_mem
    obtain ⟨start, -, hstart, -⟩ := h.informed_play opening
    rw [List.append_assoc] at hlists
    refine hlists.mem_of_stands hstart ?_ hfirst (hstands key hkey hfirst) hdata
    intro hlisting
    rcases hregisters.stage with hopening | hopening
    all_goals
      rw [stage?_eq_some hstart, hlisting] at hopening
      cases hopening
  · apply List.mem_append_right
    obtain ⟨before, after, rfl⟩ := List.append_of_mem hstored
    have hsplit : opening ++ (before ++ .happen (.account (version key)) :: after) ++ [.settle] =
        opening ++ before ++ .happen (.account (version key)) :: (after ++ [.settle]) := by
      simp only [List.append_assoc, List.cons_append]
    rw [hsplit] at hend hlistens ⊢
    have hlistening := h.stage?_eq_listening_of_later hregisters.stage hend
    obtain ⟨e, he, hhears⟩ := h.hears_of_listening hlistening hlistens hdata
    exact mem_arrivals he hhears

/-! ## The whole -/

theorem recordsAt?_eq {wait : Wait kind.Record kind.Status}
    (h : w.waitAt? n = some ⟨kind, wait⟩) :
    w.recordsAt? n = wait.records?.map fun records => ⟨kind, records⟩ := by
  rw [recordsAt?, h]
  rfl

theorem recordsAt?_of_listening (h : w.stage? n = some .listening) : w.recordsAt? n = none := by
  obtain ⟨⟨kind, wait⟩, hwait, hstage⟩ := Option.map_eq_some_iff.mp h
  have hgoes : wait.stage ≠ .finished := by
    rw [show wait.stage = .listening from hstage]
    decide
  rw [recordsAt?_eq hwait, Wait.records?, Wait.outcome?_eq_none_iff.mpr hgoes]
  rfl

/-- A wait that is over without having failed has ended well. -/
private theorem Begins.exists_found (h : w.Begins n request)
    (hnoError : ∀ e, (w.play moves).outcomeAt? n ≠ some ⟨kind, .error e⟩)
    (hend : (w.play moves).stage? n = some .finished) :
    ∃ found, (w.play moves).outcomeAt? n = some ⟨kind, .ok found⟩ := by
  obtain ⟨wait, -, hwait, -⟩ := h.informed_play moves
  rw [stage?_eq_some hwait, Option.some.injEq] at hend
  cases houtcome : wait.outcome? with
  | none => exact absurd hend (Wait.outcome?_eq_none_iff.mp houtcome)
  | some outcome =>
    have hat := (outcomeAt?_eq_some_iff hwait).mpr houtcome
    cases outcome with
    | error e => exact absurd hat (hnoError e)
    | ok found => exact ⟨found, hat⟩

/-- A wait that ends well ends with the records of its targets in their order. -/
private theorem Begins.recordsAt?_of_outcomeAt? (h : w.Begins n request) {found : Found kind.Record}
    (hend : (w.play moves).outcomeAt? n = some ⟨kind, .ok found⟩) :
    (w.play moves).recordsAt? n = some ⟨kind, .ok (found.inOrder request.targets)⟩ := by
  obtain ⟨wait, -, hwait, rfl, -⟩ := h.informed_play moves
  rw [recordsAt?_eq hwait, Wait.records?, (outcomeAt?_eq_some_iff hwait).mp hend]
  rfl

/-- A wait for all of its targets ends well with the last of the versions that show them, and with
their records in the order of the targets: whichever versions stood in the ledger at first and in
whatever order the others are stored once it listens. A task counts if it is bound to a session, and
what stood in the ledger at first has to stand there until the listing is answered. -/
theorem endsWithLast_startWait (w : World) (id : String)
    (request : WaitRequest kind.Record kind.Status) (timeout : Option UInt64)
    (opening later : List Move) (version : EntityKey → RawAccount)
    (record : EntityKey → kind.Record) (keyOf : kind.Record → Option EntityKey)
    (hwatch : request.watch = { kind.watch with keyOf }) (hmode : request.mode = .all)
    (hversions : request.Versions w.accounts (opening ++ later) version record)
    (hbound : ∀ key ∈ request.targets, kind.Bound (record key))
    (hunhindered : (w.startWait id kind request timeout).Unhindered request
      (w.client.wait w.now request timeout).deadline (opening ++ later))
    (hregisters : (w.startWait id kind request timeout).Registers w.waits.length request.targets
      version opening)
    (hstands : ∀ key ∈ request.targets, version key ∈ w.accounts →
      (w.startWait id kind request timeout).StandsUntilListed w.waits.length opening
        (version key)) :
    w.EndsWithLast (w.startWait id kind request timeout) w.waits.length request.targets version
      record opening later := by
  have hbegins := begins_startWait w id request timeout
  have haccounts : (w.startWait id kind request timeout).accounts = w.accounts := by
    rw [accounts, endpoint_startWait]
  have harrives (soon : List Move) (key : EntityKey) : w.HasArrived version soon key ↔
      (w.startWait id kind request timeout).HasArrived version soon key := by
    rw [HasArrived, HasArrived, haccounts]
  rw [← haccounts] at hversions hstands
  -- Once it is settled the wait is over, with all versions there, or it listens, with some missing.
  have hsettled (soon : List Move) (hsoon : soon <+: later) :
      (((w.startWait id kind request timeout).play (opening ++ soon)).settle.recordsAt?
          w.waits.length = some ⟨kind, .ok (request.targets.map record)⟩ ∧
        ∀ key ∈ request.targets, w.HasArrived version soon key) ∨
      (((w.startWait id kind request timeout).play (opening ++ soon)).settle.recordsAt?
          w.waits.length = none ∧
        ¬ ∀ key ∈ request.targets, w.HasArrived version soon key) := by
    simp only [harrives]
    have hmoves : opening ++ soon <+: opening ++ later :=
      (List.prefix_append_right_inj opening).mpr hsoon
    have hnoError := (hunhindered.of_prefix hmoves).settle.outcomeAt?_ne_error
      hversions.targets_ne_nil
    have hstored (account : RawAccount)
        (h : .happen (.account account) ∈ opening ++ soon ++ [.settle]) :
        .happen (.account account) ∈ opening ++ soon := Move.happen_mem_concat_settle.mp h
    have hversions' := hversions.of_stored fun account h => hmoves.subset (hstored account h)
    rw [play_settle]
    by_cases hend : ((w.startWait id kind request timeout).play
        (opening ++ soon ++ [.settle])).stage? w.waits.length = some .finished
    · left
      obtain ⟨found, hfound⟩ := hbegins.exists_found hnoError hend
      obtain ⟨hinOrder, harrived⟩ := hbegins.inOrder_of_outcomeAt? hmode hversions' hfound
      have hrecords := hbegins.recordsAt?_of_outcomeAt? hfound
      rw [hinOrder] at hrecords
      refine ⟨hrecords, fun key hkey => (harrived key hkey).imp_right fun hmem => ?_⟩
      exact (List.mem_append.mp (hstored _ hmem)).resolve_left (hregisters.gap key hkey)
    · right
      have hlistening : ((w.startWait id kind request timeout).play
          (opening ++ soon ++ [.settle])).stage? w.waits.length = some .listening := by
        rw [List.append_assoc] at hend ⊢
        exact hbegins.stage?_eq_listening hregisters.stage hend
      refine ⟨recordsAt?_of_listening hlistening, ?_⟩
      apply hbegins.not_forall_hasArrived hmode hwatch hversions.shows hbound hregisters hstands
      rw [play_settle]
      exact hlistening
  constructor
  · intro soon hsoon hall
    rcases hsettled soon hsoon with ⟨hended, -⟩ | ⟨-, hnot⟩
    · exact hended
    · exact absurd hall hnot
  · intro soon hsoon hnot
    rcases hsettled soon hsoon with ⟨-, hall⟩ | ⟨hpending, -⟩
    · exact absurd hall hnot
    · exact hpending

end World

/-! ## Two nodes, one after the other -/

/-- Asks for nodes 3 and 2 to be active. -/
def WaitRequest.bothNodes : WaitRequest EntityKind.node.Record EntityKind.node.Status :=
  { WaitRequest.twoNodes with targets := [.address (.replicate 32 3), .address (.replicate 32 2)] }

/-- Node 3 is disabled first and becomes active then. -/
def Move.thirdNode : List Move :=
  [.happen (.account ((NodeInfo.plain (.replicate 32 3) .disabled).storedAt (.replicate 32 13))),
    .happen (.account ((NodeInfo.plain (.replicate 32 3) .active).storedAt (.replicate 32 13)))]

/-- The active node that a key stands for. -/
def NodeInfo.activeAt : EntityKey → NodeInfo
  | .address pubkey => .plain pubkey .active
  | .slot _ => .plain (.replicate 32 0) .active

/-- Where the active nodes 2 and 3 sit. -/
def RawAccount.activeNode (key : EntityKey) : RawAccount :=
  (NodeInfo.activeAt key).storedAt
    (if key = .address (.replicate 32 2) then .replicate 32 12 else .replicate 32 13)

namespace World

set_option maxRecDepth 10000 in
private theorem versions_bothNodes :
    WaitRequest.bothNodes.Versions oneNode.accounts ([] ++ Move.thirdNode) RawAccount.activeNode
      NodeInfo.activeAt where
  targets_ne_nil := by decide
  nodup := by decide
  shows key hkey := by
    rcases List.mem_pair.mp hkey with rfl | rfl
    · rfl
    · rfl
  only account haccount key a hsight := by
    have hsecond : WaitRequest.bothNodes.sight
        ((NodeInfo.plain (.replicate 32 2) .active).storedAt (.replicate 32 12)).change =
          some (.address (.replicate 32 2), NodeInfo.plain (.replicate 32 2) .active) := rfl
    have hdisabled : WaitRequest.bothNodes.sight
        ((NodeInfo.plain (.replicate 32 3) .disabled).storedAt (.replicate 32 13)).change =
          none := rfl
    have hthird : WaitRequest.bothNodes.sight
        ((NodeInfo.plain (.replicate 32 3) .active).storedAt (.replicate 32 13)).change =
          some (.address (.replicate 32 3), NodeInfo.plain (.replicate 32 3) .active) := rfl
    rcases haccount with haccount | hmoves
    · cases List.mem_singleton.mp haccount
      cases hsecond.symm.trans hsight
      rfl
    · rcases List.mem_pair.mp hmoves with heq | heq
      · cases heq
        cases hdisabled.symm.trans hsight
      · cases heq
        cases hthird.symm.trans hsight
        rfl

private theorem unhindered_bothNodes :
    (oneNode.startWait "both" .node .bothNodes (some 1000)).Unhindered .bothNodes
      (oneNode.client.wait oneNode.now WaitRequest.bothNodes (some 1000)).deadline
      ([] ++ Move.thirdNode) where
  means := by
    rw [client_startWait]
    rfl
  quiet := rfl
  ahead := by
    rintro time ⟨⟩
    decide +kernel
  kept := by simp [Move.thirdNode]
  served := by
    apply served_of_faults_kept
    · rw [endpoint_startWait]
      rfl
    · rw [endpoint_startWait]
      rfl
    · simp [Move.thirdNode]

private theorem registers_bothNodes :
    (oneNode.startWait "both" .node .bothNodes (some 1000)).Registers 0
      WaitRequest.bothNodes.targets RawAccount.activeNode [] where
  stage := by
    left
    decide +kernel
  gap _ _ := List.not_mem_nil

set_option maxRecDepth 10000 in
/-- Node 2 is active from the beginning on. The wait ends as soon as node 3 is, with node 3 before
node 2. -/
theorem endsWithLast_bothNodes :
    ((oneNode.startWait "both" .node .bothNodes (some 1000)).play
        (Move.thirdNode.take 1)).settle.recordsAt? 0 = none ∧
    ((oneNode.startWait "both" .node .bothNodes (some 1000)).play
        Move.thirdNode).settle.recordsAt? 0 =
      some ⟨.node, .ok [NodeInfo.plain (.replicate 32 3) .active,
        NodeInfo.plain (.replicate 32 2) .active]⟩ := by
  have hends := endsWithLast_startWait oneNode "both" .bothNodes (some 1000) [] Move.thirdNode
    RawAccount.activeNode NodeInfo.activeAt NodeInfo.watch.keyOf rfl rfl versions_bothNodes
    (fun _ _ => trivial) unhindered_bothNodes registers_bothNodes
    (fun _ _ _ before other hprefix => absurd (List.prefix_nil.mp hprefix) (by simp))
  constructor
  · refine hends.pending (Move.thirdNode.take 1) (List.take_prefix 1 _) fun hall => ?_
    rcases hall (.address (.replicate 32 3)) (by decide) with hfirst | hstored
    · have haddress := congrArg RawAccount.address (List.mem_singleton.mp hfirst)
      exact absurd haddress (by decide)
    · have hdata := List.mem_singleton.mp hstored
      injection hdata with hdata
      injection hdata with hdata
      exact absurd (congrArg (fun a => a.data) hdata) (by decide +kernel)
  · refine hends.ended Move.thirdNode (List.prefix_refl _) fun key hkey => ?_
    rcases List.mem_pair.mp hkey with rfl | rfl
    · exact Or.inr (List.mem_cons_of_mem _ List.mem_cons_self)
    · exact Or.inl List.mem_cons_self

end World

/-! ## A task without a session, and a node that does not stay active -/

/-- A task that waits for a node, and that no session has taken up. -/
def Task.freshPending : Task := { Task.fresh with status := .pending }

/-- The task in an account. -/
def Task.freshPendingAccount : RawAccount := ⟨.replicate 32 12, Account.toData Task.freshPending, 1⟩

/-- Asks for task 3 to be pending. -/
def Task.pendingRequest : WaitRequest EntityKind.task.Record EntityKind.task.Status :=
  { Task.freshRequest with status := TaskStatus.pending }

/-- Asks for node 2 to be active. -/
def WaitRequest.onlySecondNode : WaitRequest EntityKind.node.Record EntityKind.node.Status :=
  { WaitRequest.secondNode with mode := .all }

/-- A network in which node 2 is active and a listing takes time. -/
def World.slowListing : World :=
  { World.oneNode with
    endpoint := { World.oneNode.endpoint with faults := { listingDelay := some 10 } } }

/-- Node 2 is disabled before the listing ends. -/
def Move.disabledMeanwhile : List Move :=
  [.happen (.account ((NodeInfo.plain (.replicate 32 2) .disabled).storedAt (.replicate 32 12))),
    .happen (.time 10)]

namespace World

/-- A network without accounts. -/
def emptyNetwork : World where
  client := oneNode.client

set_option maxRecDepth 10000 in
private theorem versions_freshPending :
    Task.pendingRequest.Versions emptyNetwork.accounts
      ([] ++ [.happen (.account Task.freshPendingAccount)]) (fun _ => Task.freshPendingAccount)
      (fun _ => Task.freshPending) where
  targets_ne_nil := by decide
  nodup := by decide
  shows key hkey := by
    cases List.mem_singleton.mp hkey
    rfl
  only account haccount key a _ := by
    rcases haccount with haccount | hmoves
    · cases haccount
    · cases List.mem_singleton.mp hmoves
      rfl

private theorem unhindered_freshPending :
    (emptyNetwork.startWait "task" .task Task.pendingRequest none).Unhindered Task.pendingRequest
      (emptyNetwork.client.wait emptyNetwork.now Task.pendingRequest none).deadline
      ([] ++ [.happen (.account Task.freshPendingAccount)]) where
  means := by
    rw [client_startWait]
    rfl
  quiet := rfl
  ahead := by rintro _ ⟨⟩
  kept := by simp
  served := by
    apply served_of_faults_kept
    · rw [endpoint_startWait]
      rfl
    · rw [endpoint_startWait]
      rfl
    · simp

set_option maxRecDepth 10000 in
private theorem versions_disabledMeanwhile :
    WaitRequest.onlySecondNode.Versions slowListing.accounts (Move.disabledMeanwhile ++ [])
      RawAccount.activeNode NodeInfo.activeAt where
  targets_ne_nil := by decide
  nodup := by decide
  shows key hkey := by
    cases List.mem_singleton.mp hkey
    rfl
  only account haccount key a hsight := by
    have hactive : WaitRequest.onlySecondNode.sight
        ((NodeInfo.plain (.replicate 32 2) .active).storedAt (.replicate 32 12)).change =
          some (.address (.replicate 32 2), NodeInfo.plain (.replicate 32 2) .active) := rfl
    have hdisabled : WaitRequest.onlySecondNode.sight
        ((NodeInfo.plain (.replicate 32 2) .disabled).storedAt (.replicate 32 12)).change =
          none := rfl
    rcases haccount with haccount | hmoves
    · cases List.mem_singleton.mp haccount
      cases hactive.symm.trans hsight
      rfl
    · rcases List.mem_pair.mp hmoves with heq | heq
      · cases heq
        cases hdisabled.symm.trans hsight
      · cases heq

private theorem unhindered_disabledMeanwhile :
    (slowListing.startWait "node" .node .onlySecondNode none).Unhindered .onlySecondNode
      (slowListing.client.wait slowListing.now WaitRequest.onlySecondNode none).deadline
      (Move.disabledMeanwhile ++ []) where
  means := by
    rw [client_startWait]
    rfl
  quiet := rfl
  ahead := by rintro _ ⟨⟩
  kept := by simp [Move.disabledMeanwhile]
  served := served_of_faults_kept rfl rfl (by simp [Move.disabledMeanwhile])

/-- A task without a session may be filtered out, and what stood in the ledger at first may be gone
when the listing is answered: the wait goes on then. -/
theorem not_forall_endsWithLast :
    (¬ ∀ (w : World) (id : String) (kind : EntityKind)
      (request : WaitRequest kind.Record kind.Status) (timeout : Option UInt64)
      (opening later : List Move) (version : EntityKey → RawAccount)
      (record : EntityKey → kind.Record), request.watch = kind.watch → request.mode = .all →
      request.Versions w.accounts (opening ++ later) version record →
      (w.startWait id kind request timeout).Unhindered request
        (w.client.wait w.now request timeout).deadline (opening ++ later) →
      (w.startWait id kind request timeout).Registers w.waits.length request.targets version
        opening →
      (∀ key ∈ request.targets, version key ∈ w.accounts →
        (w.startWait id kind request timeout).StandsUntilListed w.waits.length opening
          (version key)) →
      w.EndsWithLast (w.startWait id kind request timeout) w.waits.length request.targets version
        record opening later) ∧
    ¬ ∀ (w : World) (id : String) (kind : EntityKind)
      (request : WaitRequest kind.Record kind.Status) (timeout : Option UInt64)
      (opening later : List Move) (version : EntityKey → RawAccount)
      (record : EntityKey → kind.Record), request.watch = kind.watch → request.mode = .all →
      request.Versions w.accounts (opening ++ later) version record →
      (∀ key ∈ request.targets, kind.Bound (record key)) →
      (w.startWait id kind request timeout).Unhindered request
        (w.client.wait w.now request timeout).deadline (opening ++ later) →
      (w.startWait id kind request timeout).Registers w.waits.length request.targets version
        opening →
      w.EndsWithLast (w.startWait id kind request timeout) w.waits.length request.targets version
        record opening later := by
  constructor
  · intro h
    have hregisters : (emptyNetwork.startWait "task" .task Task.pendingRequest none).Registers 0
        Task.pendingRequest.targets (fun _ => Task.freshPendingAccount) [] :=
      ⟨Or.inl (by decide +kernel), fun _ _ => List.not_mem_nil⟩
    have hends := h emptyNetwork "task" .task Task.pendingRequest none [] _ _ _ rfl rfl
      versions_freshPending unhindered_freshPending hregisters (fun _ _ hfirst => by cases hfirst)
    have hended := hends.ended _ (List.prefix_refl _) fun _ _ => Or.inr List.mem_cons_self
    have hlistens : ((emptyNetwork.startWait "task" .task Task.pendingRequest none).play
        [.happen (.account Task.freshPendingAccount)]).settle.stage? 0 = some .listening := by
      decide +kernel
    cases (recordsAt?_of_listening hlistens).symm.trans hended
  · intro h
    have hlistens : ((slowListing.startWait "node" .node .onlySecondNode none).play
        Move.disabledMeanwhile).stage? 0 = some .listening := by
      decide +kernel
    have hregisters : (slowListing.startWait "node" .node .onlySecondNode none).Registers 0
        WaitRequest.onlySecondNode.targets RawAccount.activeNode Move.disabledMeanwhile := by
      refine ⟨Or.inl hlistens, fun key hkey hmem => ?_⟩
      cases List.mem_singleton.mp hkey
      rcases List.mem_pair.mp hmem with heq | heq
      · injection heq with heq
        injection heq with heq
        exact absurd (congrArg (fun a => a.data) heq) (by decide +kernel)
      · cases heq
    have hends := h slowListing "node" .node .onlySecondNode none Move.disabledMeanwhile [] _ _ rfl
      rfl versions_disabledMeanwhile (fun _ _ => trivial) unhindered_disabledMeanwhile hregisters
    have hended := hends.ended [] List.nil_prefix fun key hkey => by
      cases List.mem_singleton.mp hkey
      exact Or.inl List.mem_cons_self
    have hgoes : ((slowListing.startWait "node" .node .onlySecondNode none).play
        Move.disabledMeanwhile).settle.stage? 0 = some .listening := by
      decide +kernel
    cases (recordsAt?_of_listening hgoes).symm.trans hended

end World

end ComputeNet
