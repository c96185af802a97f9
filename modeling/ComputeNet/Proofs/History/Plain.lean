import ComputeNet.Proofs.History.Returned

/-!
# Histories without batches

A plain history would hand out the events of one transaction after the other, in the order of the
signatures, until it had enough (`plain`). Where the times of the transactions can be written and
never increase along the signatures (`Dated`), the events that are gathered are in order before they
are sorted, so that a history is the plain one, whatever its batches are and however long each fetch
takes (`replay_eq_plain`).
-/

namespace ComputeNet

/-- What is in order stays as it is when the newest are put first. -/
theorem newestBy_eq_self {α : Type} {time : α → Int} {items : List α} (h : NeverNewer time items) :
    newestBy time items = items :=
  List.mergeSort_of_pairwise (h.imp decide_eq_true)

/-- A time that the calendar can write is taken as it is. -/
theorem Stamp.ofBlockTime_some {seconds : Int} (hearliest : earliest ≤ seconds)
    (hlatest : seconds ≤ latest) (reading : Int) :
    ofBlockTime reading (some seconds) = ⟨seconds * 1000000000, false⟩ := by
  rw [ofBlockTime, if_pos ⟨hearliest, hlatest⟩]

namespace History

/-- The time of the block of a transaction, in seconds, if both are known. -/
def blockTime? (source : TransactionSource) (e : SignatureEntry) : Option Int :=
  (source.transaction? e.signature).bind (·.blockTime)

/-- The transaction of a signature, if it is found, has a time which the calendar can write. -/
def Written (source : TransactionSource) (e : SignatureEntry) : Prop :=
  (source.transaction? e.signature).isSome → ∃ seconds, blockTime? source e = some seconds ∧
    Stamp.earliest ≤ seconds ∧ seconds ≤ Stamp.latest

/-- The transactions that are found have times which the calendar can write, and which never
increase along the signatures. -/
structure Dated (source : TransactionSource) (entries : List SignatureEntry) : Prop where
  written : ∀ e ∈ entries, (source.transaction? e.signature).isSome →
    ∃ seconds, blockTime? source e = some seconds ∧ Stamp.earliest ≤ seconds ∧
      seconds ≤ Stamp.latest
  ordered : entries.Pairwise fun d e => ∀ earlier later, blockTime? source e = some earlier →
    blockTime? source d = some later → earlier ≤ later

variable {source : TransactionSource} {scope : Scope} {task : Option UInt64}
  {entries : List SignatureEntry}

theorem Dated.sublist (h : Dated source entries) {entries' : List SignatureEntry}
    (hsublist : entries'.Sublist entries) : Dated source entries' :=
  ⟨fun e he => h.written e (hsublist.subset he), h.ordered.sublist hsublist⟩

/-- Events are read only from transactions that are found. -/
private theorem isSome_transaction?_of_mem {e : SignatureEntry} {x : PastEvent}
    (hx : x ∈ entryEvents source scope task e) : (source.transaction? e.signature).isSome := by
  obtain ⟨-, record, lines, hrecord, -⟩ := mem_entryEvents_iff.mp hx
  rw [hrecord]
  rfl

/-- The events of a transaction have the time of its block. -/
theorem Dated.time_of_mem (h : Dated source entries) {e : SignatureEntry} (he : e ∈ entries)
    {x : PastEvent} (hx : x ∈ entryEvents source scope task e) :
    ∃ seconds, blockTime? source e = some seconds ∧
      x.time.nanoseconds = seconds * 1000000000 := by
  obtain ⟨seconds, hseconds, hearliest, hlatest⟩ :=
    h.written e he (isSome_transaction?_of_mem hx)
  refine ⟨seconds, hseconds, ?_⟩
  rw [History.time_of_mem e x hx, entryTime]
  change (Stamp.ofBlockTime _ (blockTime? source e)).nanoseconds = _
  rw [hseconds, Stamp.ofBlockTime_some hearliest hlatest]

/-- Along the signatures the events are in order already. -/
private theorem Dated.neverNewer_flatMap (h : Dated source entries) :
    NeverNewer (·.time.nanoseconds) (entries.flatMap (entryEvents source scope task)) := by
  rw [NeverNewer, List.pairwise_flatMap]
  constructor
  · intro e _
    apply List.pairwise_of_forall_mem_list
    intro x hx y hy
    exact Int.le_of_eq ((History.time_of_mem e y hy).trans (History.time_of_mem e x hx).symm)
  · refine h.ordered.imp_of_mem fun {d e} hd he hle x hx y hy => ?_
    obtain ⟨later, hlater, hx⟩ := h.time_of_mem hd hx
    obtain ⟨earlier, hearlier, hy⟩ := h.time_of_mem he hy
    have hseconds := hle earlier later hearlier hlater
    rw [hx, hy]
    omega

/-- Where the time of a block can be written, only the record counts: not what the clock shows nor
how long the fetch takes. -/
theorem entryEvents_congr {source' : TransactionSource} {e : SignatureEntry}
    (hsame : source'.transaction? e.signature = source.transaction? e.signature)
    (hwritten : Written source e) :
    entryEvents source' scope task e = entryEvents source scope task e := by
  cases hrecord : source.transaction? e.signature with
  | none => simp only [entryEvents, transactionEvents, hsame, hrecord]
  | some record =>
    obtain ⟨seconds, hseconds, hearliest, hlatest⟩ := hwritten (by rw [hrecord]; rfl)
    rw [blockTime?, hrecord, Option.bind_some] at hseconds
    simp only [entryEvents, transactionEvents, hsame, hrecord, hseconds,
      Stamp.ofBlockTime_some hearliest hlatest]

/-- The events that one transaction after the other yields, in the order of the signatures, up to
the limit. -/
def plain (source : TransactionSource) (monitor : MonitorSettings) (program network : Address)
    (scope : Scope) (options : HistoryOptions) : List PastEvent :=
  ((chosen source monitor program network scope options.before).flatMap
    (entryEvents source scope options.task)).take (limitOf monitor scope options)

/-- The events of a dated history are the plain ones. -/
theorem events_replay_of_dated (source : TransactionSource) (monitor : MonitorSettings)
    (program network : Address) (scope : Scope) (options : HistoryOptions)
    (h : Dated source (chosen source monitor program network scope options.before)) :
    (replay source monitor program network scope options).events =
      plain source monitor program network scope options := by
  obtain ⟨looked, ⟨rest, hrest⟩, hevents, henough⟩ :=
    exists_blocks source monitor program network scope options
  have hlooked : Dated source looked := h.sublist (hrest ▸ List.sublist_append_left looked rest)
  rw [hevents, ← newestBy_flatMap History.time_of_mem,
    newestBy_eq_self hlooked.neverNewer_flatMap, plain]
  rcases henough with rfl | hle
  · rfl
  · rw [← hrest, List.flatMap_append, List.take_append_of_le_length hle]

/-- A dated history returns the plain one: its batches, the delays of its fetches and the clock make
no difference, and with a smaller limit it returns a front of what it returns otherwise. -/
theorem replay_eq_plain (source : TransactionSource) (monitor : MonitorSettings)
    (program network : Address) (scope : Scope) (options : HistoryOptions)
    (hdated : Dated source (chosen source monitor program network scope options.before)) :
    (replay source monitor program network scope options).events =
      plain source monitor program network scope options ∧
    (∀ (size : UInt64) (delay : Signature → Nat) (clock : Signature → Int),
      (replay { source with delay, clock } { monitor with fetchBatchSize := size } program network
        scope options).events = (replay source monitor program network scope options).events) ∧
    ∀ less : UInt64, less.toNat ≤ limitOf monitor scope options →
      (replay source monitor program network scope { options with limit := some less }).events <+:
        (replay source monitor program network scope options).events := by
  have hplain := events_replay_of_dated source monitor program network scope options hdated
  refine ⟨hplain, ?_, ?_⟩
  · intro size delay clock
    have hdated' : Dated { source with delay, clock } (chosen { source with delay, clock }
        { monitor with fetchBatchSize := size } program network scope options.before) :=
      ⟨hdated.written, hdated.ordered⟩
    rw [hplain, events_replay_of_dated _ _ _ _ _ _ hdated', plain, plain]
    congr 1
    exact List.flatMap_congr fun e he => entryEvents_congr rfl (hdated.written e he)
  · intro less hless
    have hless' := events_replay_of_dated source monitor program network scope
      { options with limit := some less } hdated
    rw [hplain, hless']
    exact List.take_prefix_take_left hless

/-! ## A history of two transactions with falling times -/

/-- A source that knows of two transactions. The first of them takes longer to fetch. -/
def fallingClaims : TransactionSource where
  signatures _ _ _ := some [⟨.replicate 64 1, false⟩, ⟨.replicate 64 2, false⟩]
  transaction? signature :=
    if signature = .replicate 64 1 then some (claimOf 0 signature (some 9))
    else some (claimOf 1 signature (some 7))
  delay signature := if signature = .replicate 64 1 then 30 else 0
  clock _ := 5

theorem dated_fallingClaims :
    Dated fallingClaims
      (chosen fallingClaims {} (.replicate 32 1) (.replicate 32 2) (.session 1) none) := by
  have hchosen : chosen fallingClaims {} (.replicate 32 1) (.replicate 32 2) (.session 1) none =
      [⟨.replicate 64 1, false⟩, ⟨.replicate 64 2, false⟩] := rfl
  have hfirst : blockTime? fallingClaims ⟨.replicate 64 1, false⟩ = some 9 := rfl
  have hsecond : blockTime? fallingClaims ⟨.replicate 64 2, false⟩ = some 7 := rfl
  rw [hchosen]
  constructor
  · intro e he _
    simp only [List.mem_cons, List.not_mem_nil, or_false] at he
    rcases he with rfl | rfl
    · exact ⟨9, hfirst, by decide, by decide⟩
    · exact ⟨7, hsecond, by decide, by decide⟩
  · rw [List.pairwise_pair, hfirst, hsecond]
    rintro earlier later ⟨⟩ ⟨⟩
    decide

set_option maxRecDepth 10000 in
/-- One by one, and with the delays the other way round, the same event comes. -/
theorem replay_eq_plain_fallingClaims :
    Dated fallingClaims
      (chosen fallingClaims {} (.replicate 32 1) (.replicate 32 2) (.session 1) none) ∧
    (replay { fallingClaims with delay := fun signature => if signature = .replicate 64 1 then 0
        else 30 } { fetchBatchSize := 0 } (.replicate 32 1) (.replicate 32 2) (.session 1)
      { limit := some 1 }).events =
    [⟨⟨.taskClaimed ⟨1, 0, .replicate 32 1, 5⟩, .replicate 64 1⟩, ⟨9000000000, false⟩⟩] := by
  obtain ⟨hplain, hsame, -⟩ := replay_eq_plain fallingClaims {} (.replicate 32 1) (.replicate 32 2)
    (.session 1) { limit := some 1 } dated_fallingClaims
  have hfirst : plain fallingClaims {} (.replicate 32 1) (.replicate 32 2) (.session 1)
      { limit := some 1 } =
      [⟨⟨.taskClaimed ⟨1, 0, .replicate 32 1, 5⟩, .replicate 64 1⟩, ⟨9000000000, false⟩⟩] := by
    decide +kernel
  exact ⟨dated_fallingClaims, (hsame 0 _ fallingClaims.clock).trans (hplain.trans hfirst)⟩

end History

end ComputeNet
