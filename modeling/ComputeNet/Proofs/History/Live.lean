import Mathlib.Data.List.SplitBy
import ComputeNet.Proofs.Feed.Delivered
import ComputeNet.Proofs.History.Plain
import ComputeNet.Proofs.Wait.Causes
import ComputeNet.Proofs.World.Stored

/-!
# Histories and feeds

A feed hears of transactions while they happen, oldest first, and a history looks them up later,
newest first. Both read the events of a transaction off its logs (`TransactionRecord.events`), so
that they agree on them: what the feed of a scope has delivered is, with the last transaction first,
what a history of the scope returns of the kinds of a session or of the program as a whole
(`history_eq_lastFirst_deliveredAt`).
-/

namespace ComputeNet

namespace TransactionRecord

/-- What an endpoint tells the followers of a log about the transaction. -/
def notification (r : TransactionRecord) : LogNotification :=
  ⟨some r.signature, r.logs, r.failure⟩

/-- The events of the transaction that pass the filter for a session, of whatever kinds. -/
def events (session : Option UInt64) (r : TransactionRecord) : List LoggedEvent :=
  match r.failure, r.logs with
  | none, some logs => Log.events session r.signature logs
  | _, _ => []

variable {session : Option UInt64} {r : TransactionRecord}

private theorem signature_of_mem_events {x : LoggedEvent} (hx : x ∈ r.events session) :
    x.signature = r.signature := by
  rw [events] at hx
  split at hx
  · obtain ⟨event, -, rfl⟩ := List.mem_map.mp hx
    rfl
  · cases hx

/-- A feed takes the events of a transaction whose kinds its scope accepts. -/
theorem events_notification (scope : Scope) (r : TransactionRecord) :
    r.notification.events scope =
      (r.events scope.sessionFilter).filter fun e => scope.accepts e.event.kind := by
  obtain ⟨signature, logs, blockTime, failure⟩ := r
  cases failure <;> cases logs <;> rfl

/-- A history of whatever task takes all events of a transaction. -/
private theorem map_transactionEvents {source : TransactionSource} (scope : Scope)
    (h : source.transaction? r.signature = some r) :
    (History.transactionEvents source scope none r.signature).map (·.toLoggedEvent) =
      r.events scope.sessionFilter := by
  have hall (past : List PastEvent) : past.filter (·.event.concernsTask none) = past :=
    List.filter_eq_self.mpr fun _ _ => rfl
  rw [events]
  cases hfailure : r.failure with
  | some failure => simp only [History.transactionEvents, h, hfailure, List.map_nil]
  | none =>
    cases hlogs : r.logs with
    | none => simp only [History.transactionEvents, h, hfailure, hlogs, List.map_nil]
    | some logs =>
      dsimp only
      rw [History.transactionEvents_eq_pastEvents h hfailure hlogs, hall, Log.pastEvents,
        List.map_map]
      exact List.map_id _

end TransactionRecord

/-! ## Blocks in reverse -/

/-- The blocks of different names that make up a list are what it falls into by name. -/
private theorem splitBy_flatMap {α β κ : Type} [DecidableEq κ] {block : α → List β} {name : α → κ}
    {key : β → κ} (hkey : ∀ a, ∀ b ∈ block a, key b = name a) {items : List α}
    (hdistinct : (items.map name).Nodup) :
    (items.flatMap block).splitBy (fun b c => key b = key c) =
      (items.map block).filter fun bs => !bs.isEmpty := by
  induction items with
  | nil => rfl
  | cons a items ih =>
    obtain ⟨hnot, hdistinct⟩ := List.nodup_cons.mp hdistinct
    rw [List.flatMap_cons, List.map_cons, List.filter_cons, List.splitBy_append, ih hdistinct]
    · cases hblock : block a with
      | nil => rfl
      | cons b bs =>
        have hchain : (b :: bs).IsChain fun b c => decide (key b = key c) = true := by
          refine List.Pairwise.isChain (List.pairwise_of_forall_mem_list fun c hc d hd => ?_)
          rw [← hblock] at hc hd
          rw [decide_eq_true_eq, hkey a c hc, hkey a d hd]
        rw [List.splitBy_of_isChain (List.cons_ne_nil b bs) hchain]
        rfl
    · intro b hb c hc
      obtain ⟨a', ha', hc'⟩ := List.mem_flatMap.mp (List.mem_of_mem_head? hc)
      rw [hkey a b (List.mem_of_mem_getLast? hb), hkey a' c hc', decide_eq_false_iff_not]
      rintro heq
      exact hnot (heq ▸ List.mem_map_of_mem ha')

/-- The events of one transaction after the other, the last transaction first. -/
def lastFirst (events : List LoggedEvent) : List LoggedEvent :=
  (events.splitBy fun d e => d.signature = e.signature).reverse.flatten

private theorem lastFirst_flatMap {α : Type} {block : α → List LoggedEvent} {name : α → Signature}
    (hname : ∀ a, ∀ x ∈ block a, x.signature = name a) {items : List α}
    (hdistinct : (items.map name).Nodup) :
    lastFirst (items.flatMap block) = items.reverse.flatMap block := by
  rw [lastFirst, splitBy_flatMap hname hdistinct, ← List.filter_reverse,
    List.flatten_filter_not_isEmpty, ← List.map_reverse, List.flatMap_def]

/-! ## What is recorded -/

/-- The transaction in the list of an address. -/
def HistoryEntry.listed (e : HistoryEntry) : SignatureEntry :=
  ⟨e.record.signature, e.record.failure.isSome⟩

namespace Ledger

variable {l l' : Ledger} {story : List HistoryEntry}

/-- The lists of an address begin with the transactions that were recorded last. -/
theorem signatures_of_history (h : l'.history = story.reverse ++ l.history) {address : Address}
    (hindexed : ∀ e ∈ story, e.addresses.count address = 1) :
    l'.signatures address = story.reverse.map HistoryEntry.listed ++ l.signatures address := by
  rw [signatures, h, List.flatMap_append, ← signatures]
  congr 1
  rw [List.map_eq_flatMap]
  refine List.flatMap_congr fun e he => ?_
  rw [hindexed e (List.mem_reverse.mp he)]
  rfl

private theorem find?_of_nodup {entries : List HistoryEntry}
    (hdistinct : (entries.map (·.record.signature)).Nodup) {e : HistoryEntry} (he : e ∈ entries) :
    (entries.map (·.record)).find? (·.signature = e.record.signature) = some e.record := by
  induction entries with
  | nil => cases he
  | cons d entries ih =>
    obtain ⟨hnot, hdistinct⟩ := List.nodup_cons.mp hdistinct
    rcases List.mem_cons.mp he with rfl | he
    · simp
    · have hne : d.record.signature ≠ e.record.signature :=
        fun heq => hnot (List.mem_map.mpr ⟨e, he, heq.symm⟩)
      rw [List.map_cons, List.find?_cons_of_neg (by simpa using hne)]
      exact ih hdistinct he

/-- A transaction that was recorded last is found by its signature. -/
private theorem transaction?_of_history (h : l'.history = story.reverse ++ l.history)
    (hdistinct : (story.map (·.record.signature)).Nodup) {e : HistoryEntry} (he : e ∈ story) :
    l'.transaction? e.record.signature = some e.record := by
  rw [← List.nodup_reverse, ← List.map_reverse] at hdistinct
  rw [transaction?, h, List.map_append, List.find?_append,
    find?_of_nodup hdistinct (List.mem_reverse.mpr he), Option.some_or]

end Ledger

namespace World

/-- Some moves of a world tell a story: the transactions that happen under a scope, oldest first.
Each is recorded, and its logs are reported. -/
structure Tells (w : World) (scope : Scope) (moves : List Move) (story : List HistoryEntry) :
    Prop where
  /-- Nothing is known of the scope at first, not even under the address to turn to else. -/
  fresh : w.endpoint.ledger.signatures
      (History.addresses w.client.program w.client.network scope).1 = [] ∧
    ∀ fallback, (History.addresses w.client.program w.client.network scope).2 = some fallback →
      w.endpoint.ledger.signatures fallback = []
  recorded : moves.filterMap Move.recorded? = story
  /-- Each transaction is recorded once under the address of the scope, and under any others. -/
  indexed : ∀ e ∈ story,
    e.addresses.count (History.addresses w.client.program w.client.network scope).1 = 1
  /-- Their logs are reported in the same order, before the endpoint ends the streams. -/
  reported : emitted moves = story.map (·.record.notification)
  distinct : (story.map (·.record.signature)).Nodup
  /-- Each happens later than the one before, at a time that the calendar can write. -/
  dated : ∃ times : List Int, story.map (·.record.blockTime) = times.map some ∧
    times.Pairwise (· < ·) ∧ ∀ time ∈ times, Stamp.earliest ≤ time ∧ time ≤ Stamp.latest

/-- A look at the past finds all that is recorded of a story: the signatures of the address can be
listed, and each transaction can be fetched. -/
structure Finds (e : Endpoint) (address : Address) (story : List HistoryEntry) : Prop where
  listed : address ∉ e.failingAddresses
  fetched : ∀ told ∈ story, told.record.signature ∉ e.failingTransactions ∧
    told.record.signature ∉ e.faults.missing

section Story

variable {w w' : World} {scope : Scope} {moves : List Move} {story : List HistoryEntry}

private theorem client_of_subscribe {id : String} {asks : Bool} {failsAt : Option Nat}
    (hopen : w.subscribe id scope asks failsAt = .ok w') : w'.client = w.client := by
  obtain ⟨-, rfl⟩ := subscribe_eq_ok_iff.mp hopen
  exact w.client_act _

private theorem history_of_subscribe {id : String} {asks : Bool} {failsAt : Option Nat}
    (hopen : w.subscribe id scope asks failsAt = .ok w') :
    w'.endpoint.ledger.history = w.endpoint.ledger.history := by
  obtain ⟨-, rfl⟩ := subscribe_eq_ok_iff.mp hopen
  exact w.history_act _

/-- What the past is after a story has been told. -/
theorem Tells.history_play (h : w.Tells scope moves story) {id : String} {asks : Bool}
    {failsAt : Option Nat} (hopen : w.subscribe id scope asks failsAt = .ok w') :
    (w'.play moves).endpoint.ledger.history = story.reverse ++ w.endpoint.ledger.history := by
  rw [World.history_play, h.recorded, history_of_subscribe hopen]

/-- A feed that is kept has delivered the events of the story in the end. -/
theorem Tells.deliveredAt_settle (h : w.Tells scope moves story) {id : String} {asks : Bool}
    (hopen : w.subscribe id scope asks none = .ok w')
    (hkept : ¬ w'.Cancelled w.feeds.length moves) :
    (w'.play moves).settle.deliveredAt w.feeds.length =
      story.flatMap fun e => e.record.notification.events scope := by
  rw [deliveredAt_settle_of_subscribe hopen hkept, Feed.takes_none, h.reported, List.flatMap_map]

/-- A look at the past of a story finds each of its transactions. -/
theorem Tells.transaction? (h : w.Tells scope moves story) {id : String} {asks : Bool}
    {failsAt : Option Nat} (hopen : w.subscribe id scope asks failsAt = .ok w')
    {address : Address} (hfinds : Finds (w'.play moves).endpoint address story)
    {e : HistoryEntry} (he : e ∈ story) :
    (source (w'.play moves).endpoint).transaction? e.record.signature = some e.record := by
  obtain ⟨hserved, hthere⟩ := hfinds.fetched e he
  have hnot : ¬ (e.record.signature ∈ (w'.play moves).endpoint.failingTransactions ∨
      e.record.signature ∈ (w'.play moves).endpoint.faults.missing) := not_or.mpr ⟨hserved, hthere⟩
  exact (if_neg hnot).trans (Ledger.transaction?_of_history (h.history_play hopen) h.distinct he)

/-- A look at the past of a story looks at all of its transactions, the last one first. -/
theorem Tells.chosen_eq (h : w.Tells scope moves story) {id : String} {asks : Bool}
    {failsAt : Option Nat} (hopen : w.subscribe id scope asks failsAt = .ok w')
    (hfinds : Finds (w'.play moves).endpoint
      (History.addresses w.client.program w.client.network scope).1 story)
    (hcount : story.length ≤ w.client.monitor.maxSignatures.toNat) :
    History.chosen (source (w'.play moves).endpoint) w.client.monitor w.client.program
      w.client.network scope none = story.reverse.map HistoryEntry.listed := by
  obtain ⟨hprimary, hfallback⟩ := h.fresh
  have hpast := h.history_play hopen
  have hfirst := Ledger.signatures_of_history hpast h.indexed
  rw [hprimary, List.append_nil] at hfirst
  have hlisted : (w'.play moves).endpoint.signatures
      (History.addresses w.client.program w.client.network scope).1
      w.client.monitor.maxSignatures.toNat none = some (story.reverse.map HistoryEntry.listed) := by
    rw [Endpoint.signatures_eq_some hfinds.listed, Ledger.signaturesBefore, hfirst]
    rwa [Ledger.signaturesBefore, hfirst, List.length_map, List.length_reverse]
  rw [History.chosen]
  simp only [source, hlisted, Option.getD_some]
  split
  next hnil =>
    -- The story is empty, and there is nothing under the other address either.
    obtain rfl : story = [] := by simpa using hnil
    cases hother : (History.addresses w.client.program w.client.network scope).2 with
    | none => exact List.take_nil
    | some fallback =>
      have hnone : (w'.play moves).endpoint.ledger.signatures fallback = _ :=
        Ledger.signatures_of_history hpast (by simp)
      rw [hfallback fallback hother] at hnone
      rw [Option.bind_some, Endpoint.signatures, Ledger.signaturesBefore, hnone]
      split <;> simp
  next =>
    rw [List.take_of_length_le]
    rwa [List.length_map, List.length_reverse]

/-- The transactions of a story are dated. -/
private theorem Tells.dated_chosen (h : w.Tells scope moves story) {source : TransactionSource}
    (hfound : ∀ e ∈ story, source.transaction? e.record.signature = some e.record) :
    History.Dated source (story.reverse.map HistoryEntry.listed) := by
  have htime {e : HistoryEntry} (he : e ∈ story) :
      History.blockTime? source e.listed = e.record.blockTime := by
    rw [History.blockTime?, HistoryEntry.listed, hfound e he, Option.bind_some]
  obtain ⟨times, htimes, hrising, hwritten⟩ := h.dated
  constructor
  · intro listed hlisted _
    obtain ⟨e, he, rfl⟩ := List.mem_map.mp hlisted
    rw [List.mem_reverse] at he
    have hmem : e.record.blockTime ∈ times.map some := by
      rw [← htimes]
      exact List.mem_map_of_mem he
    obtain ⟨time, hmem, heq⟩ := List.mem_map.mp hmem
    exact ⟨time, (htime he).trans heq.symm, hwritten time hmem⟩
  · have hpairs : (times.map some).Pairwise fun a b => ∀ earlier later : Int, a = some earlier →
        b = some later → earlier < later := by
      rw [List.pairwise_map]
      refine hrising.imp ?_
      rintro a b hlt _ _ ⟨⟩ ⟨⟩
      exact hlt
    rw [← htimes, List.pairwise_map] at hpairs
    rw [List.pairwise_map, List.pairwise_reverse]
    refine hpairs.imp_of_mem fun {d e} hd he hlt earlier later hearlier hlater => ?_
    rw [htime hd] at hearlier
    rw [htime he] at hlater
    exact Int.le_of_lt (hlt earlier later hearlier hlater)

/-- A history reads off a transaction what is in its logs. -/
private theorem map_entryEvents {source : TransactionSource} {e : HistoryEntry}
    (hfound : source.transaction? e.record.signature = some e.record) :
    (History.entryEvents source scope none e.listed).map (·.toLoggedEvent) =
      e.record.events scope.sessionFilter := by
  rw [History.entryEvents, HistoryEntry.listed]
  cases hfailure : e.record.failure with
  | none => exact TransactionRecord.map_transactionEvents scope hfound
  | some failure =>
    rw [TransactionRecord.events, hfailure]
    rfl

/-- What a look at the past of a story returns: its events, those of the last transaction first. -/
theorem Tells.history_fst (h : w.Tells scope moves story) {id : String} {asks : Bool}
    {failsAt : Option Nat} (hopen : w.subscribe id scope asks failsAt = .ok w')
    (hfinds : Finds (w'.play moves).endpoint
      (History.addresses w.client.program w.client.network scope).1 story)
    (hcount : story.length ≤ w.client.monitor.maxSignatures.toNat) {limit : Option UInt64}
    (hlimit : (story.flatMap fun e => e.record.events scope.sessionFilter).length ≤
      History.limitOf w.client.monitor scope { limit }) :
    ((w'.play moves).history scope { limit }).1.map (·.toLoggedEvent) =
      story.reverse.flatMap fun e => e.record.events scope.sessionFilter := by
  have hfound (e : HistoryEntry) (he : e ∈ story) := h.transaction? hopen hfinds he
  have hchosen := h.chosen_eq hopen hfinds hcount
  have hclient : (w'.play moves).client = w.client :=
    (client_play w' moves).trans (client_of_subscribe hopen)
  have hhistory : ((w'.play moves).history scope { limit }).1 =
      (History.replay (source (w'.play moves).endpoint) w.client.monitor w.client.program
        w.client.network scope { limit }).events := by
    rw [World.history, hclient]
    cases scope <;> rfl
  have hdated := h.dated_chosen hfound
  rw [← hchosen] at hdated
  have hevents : ((story.reverse.map HistoryEntry.listed).flatMap
      (History.entryEvents (source (w'.play moves).endpoint) scope none)).map (·.toLoggedEvent) =
      story.reverse.flatMap fun e => e.record.events scope.sessionFilter := by
    rw [List.flatMap_map, List.map_flatMap]
    exact List.flatMap_congr fun e he => map_entryEvents (hfound e (List.mem_reverse.mp he))
  have hlength := congrArg List.length hevents
  rw [List.length_map, (story.reverse_perm.flatMap_right _).length_eq] at hlength
  rw [hhistory, History.events_replay_of_dated _ _ _ _ _ { limit } hdated, History.plain, hchosen,
    List.take_of_length_le (hlength ▸ hlimit), hevents]

/-- Live feed and history tell the same story: what the feed of a scope has delivered is, with the
last transaction first, what a look at the past returns of the kinds that the scope accepts. -/
theorem history_eq_lastFirst_deliveredAt {id : String} {asks : Bool}
    (hopen : w.subscribe id scope asks none = .ok w') (h : w.Tells scope moves story)
    (hkept : ¬ w'.Cancelled w.feeds.length moves)
    (hfinds : Finds (w'.play moves).endpoint
      (History.addresses w.client.program w.client.network scope).1 story)
    (hcount : story.length ≤ w.client.monitor.maxSignatures.toNat) {limit : Option UInt64}
    (hlimit : (story.flatMap fun e => e.record.events scope.sessionFilter).length ≤
      History.limitOf w.client.monitor scope { limit }) :
    (((w'.play moves).history scope { limit }).1.filter fun x =>
        match scope with
        | .session _ => decide (x.event.kind ∈ EventKind.sessionScoped)
        | .program => decide (x.event.kind ∈ EventKind.programWide)).map (·.toLoggedEvent) =
      lastFirst ((w'.play moves).settle.deliveredAt w.feeds.length) := by
  have hname (e : HistoryEntry) (x : LoggedEvent) (hx : x ∈ e.record.notification.events scope) :
      x.signature = e.record.signature := by
    rw [TransactionRecord.events_notification] at hx
    exact TransactionRecord.signature_of_mem_events (List.mem_filter.mp hx).1
  have hfilter : (((w'.play moves).history scope { limit }).1.filter
      fun x => scope.accepts x.event.kind).map (·.toLoggedEvent) =
      (((w'.play moves).history scope { limit }).1.map (·.toLoggedEvent)).filter
        fun x => scope.accepts x.event.kind := by
    rw [List.filter_map]
    rfl
  refine (congrArg (List.map _) (List.filter_congr fun x _ =>
    (scope.accepts_eq x.event.kind).symm)).trans ?_
  rw [hfilter, h.history_fst hopen hfinds hcount hlimit, List.filter_flatMap,
    h.deliveredAt_settle hopen hkept, lastFirst_flatMap hname h.distinct]
  exact List.flatMap_congr fun e _ => (TransactionRecord.events_notification scope e.record).symm

end Story

end World

/-! ## A story of two claims -/

/-- Two tasks of session 1 are taken on. In between, a transaction fails. -/
def HistoryEntry.twoClaims : List HistoryEntry :=
  [History.claimOf 0 (.replicate 64 1) (some 7),
    { History.claimOf 1 (.replicate 64 2) (some 8) with failure := some "refused" },
    History.claimOf 2 (.replicate 64 3) (some 9)].map fun record =>
      ⟨[(History.addresses (.replicate 32 100) (.replicate 32 101) (.session 1)).1], record⟩

/-- Each transaction is recorded, and its logs are reported at once. -/
def Move.twoClaims : List Move :=
  HistoryEntry.twoClaims.flatMap fun e =>
    [.happen (.transaction e.addresses e.record), .happen (.logs e.record.notification)]

namespace World

theorem tells_twoClaims : following.Tells (.session 1) Move.twoClaims HistoryEntry.twoClaims where
  fresh := ⟨rfl, fun _ _ => rfl⟩
  recorded := rfl
  indexed e he := by
    obtain ⟨record, -, rfl⟩ := List.mem_map.mp he
    exact List.count_singleton_self
  reported := rfl
  distinct := by decide
  dated := ⟨[7, 8, 9], rfl, by decide, by decide⟩

set_option maxRecDepth 10000 in
theorem events_twoClaims :
    HistoryEntry.twoClaims.flatMap (fun e => e.record.events (Scope.session 1).sessionFilter) =
      [⟨.taskClaimed ⟨1, 0, .replicate 32 1, 5⟩, .replicate 64 1⟩,
        ⟨.taskClaimed ⟨1, 2, .replicate 32 1, 5⟩, .replicate 64 3⟩] := by
  decide +kernel

/-- The claims come one after the other, and the last one comes first of the past. -/
theorem history_eq_lastFirst_twoClaims :
    following.subscribe "session" (.session 1) false none = .ok followingSession ∧
    ¬ followingSession.Cancelled 0 Move.twoClaims ∧
    (followingSession.play Move.twoClaims).settle.deliveredAt 0 =
      [⟨.taskClaimed ⟨1, 0, .replicate 32 1, 5⟩, .replicate 64 1⟩,
        ⟨.taskClaimed ⟨1, 2, .replicate 32 1, 5⟩, .replicate 64 3⟩] ∧
    (((followingSession.play Move.twoClaims).history (.session 1) {}).1.filter
        fun x => x.event.kind ∈ EventKind.sessionScoped).map (·.toLoggedEvent) =
      [⟨.taskClaimed ⟨1, 2, .replicate 32 1, 5⟩, .replicate 64 3⟩,
        ⟨.taskClaimed ⟨1, 0, .replicate 32 1, 5⟩, .replicate 64 1⟩] := by
  have hopen : following.subscribe "session" (.session 1) false none = .ok followingSession := rfl
  have hkept : ¬ followingSession.Cancelled 0 Move.twoClaims := by
    rintro ⟨before, m, after, heq, hcancels⟩
    have hm : m ∈ Move.twoClaims := heq ▸ List.mem_append_right before List.mem_cons_self
    obtain ⟨e, -, hm⟩ := List.mem_flatMap.mp hm
    simp only [List.mem_cons, List.not_mem_nil, or_false] at hm
    rcases hm with rfl | rfl <;> cases hcancels
  have hfinds : Finds (followingSession.play Move.twoClaims).endpoint
      (History.addresses following.client.program following.client.network (.session 1)).1
      HistoryEntry.twoClaims := ⟨List.not_mem_nil, fun _ _ => ⟨List.not_mem_nil, List.not_mem_nil⟩⟩
  have hdelivered : (followingSession.play Move.twoClaims).settle.deliveredAt 0 =
      [⟨.taskClaimed ⟨1, 0, .replicate 32 1, 5⟩, .replicate 64 1⟩,
        ⟨.taskClaimed ⟨1, 2, .replicate 32 1, 5⟩, .replicate 64 3⟩] := by
    refine (tells_twoClaims.deliveredAt_settle hopen hkept).trans ?_
    simp only [TransactionRecord.events_notification, ← List.filter_flatMap]
    rw [events_twoClaims]
    decide
  have hlimit : (HistoryEntry.twoClaims.flatMap fun e =>
      e.record.events (Scope.session 1).sessionFilter).length ≤
        History.limitOf following.client.monitor (.session 1) {} := by
    rw [events_twoClaims]
    decide
  have hpast := history_eq_lastFirst_deliveredAt hopen tells_twoClaims hkept hfinds (by decide)
    hlimit
  exact ⟨hopen, hkept, hdelivered, hpast.trans ((congrArg lastFirst hdelivered).trans (by decide))⟩

end World

end ComputeNet
