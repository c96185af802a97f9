import ComputeNet.Proofs.Event.Linewise
import ComputeNet.Proofs.History.Batches
import ComputeNet.Proofs.History.Newest

/-!
# What a history returns

The events of a history come from the logs of transactions (`mem_entryEvents_iff`). They are the
blocks of some transactions, those of a front of the signatures: the newest block first, blocks of
one time in the order of the signatures, and cut to the limit (`exists_blocks`). No block is left
out unless the limit is reached: the front is that of the batches that are worked through, and fewer
batches would not do (`exists_looked`).
-/

namespace ComputeNet.History

variable (source : TransactionSource) (scope : Scope) (task : Option UInt64)

/-- The events of a transaction in a list of signatures: none if it failed. -/
def entryEvents (e : SignatureEntry) : List PastEvent :=
  if e.failed then [] else transactionEvents source scope task e.signature

/-- The time of the events of a transaction in a list of signatures. -/
def entryTime (e : SignatureEntry) : Int :=
  (Stamp.ofBlockTime (source.clock e.signature)
    ((source.transaction? e.signature).bind (·.blockTime))).nanoseconds

variable {source scope task}

/-- The events of a transaction are the past events in its logs that concern the task, provided that
it is not listed as failed, is found and has not failed. -/
theorem mem_entryEvents_iff {e : SignatureEntry} {x : PastEvent} :
    x ∈ entryEvents source scope task e ↔ e.failed = false ∧ ∃ record lines,
      source.transaction? e.signature = some record ∧ record.failure = none ∧
      record.logs = some lines ∧ x.event.concernsTask task = true ∧
      x ∈ Log.pastEvents scope.sessionFilter e.signature
        (.ofBlockTime (source.clock e.signature) record.blockTime) lines := by
  rw [entryEvents]
  constructor
  · intro hx
    cases hfailed : e.failed with
    | true =>
      rw [hfailed] at hx
      cases hx
    | false =>
      rw [hfailed, if_neg Bool.false_ne_true] at hx
      cases hrecord : source.transaction? e.signature with
      | none =>
        rw [transactionEvents, hrecord] at hx
        cases hx
      | some record =>
        cases hfailure : record.failure with
        | some failure =>
          simp only [transactionEvents, hrecord, hfailure] at hx
          cases hx
        | none =>
          cases hlines : record.logs with
          | none =>
            simp only [transactionEvents, hrecord, hfailure, hlines] at hx
            cases hx
          | some lines =>
            rw [transactionEvents_eq_pastEvents hrecord hfailure hlines] at hx
            obtain ⟨hpast, hconcerns⟩ := List.mem_filter.mp hx
            exact ⟨rfl, record, lines, rfl, hfailure, hlines, hconcerns, hpast⟩
  · rintro ⟨hfailed, record, lines, hrecord, hfailure, hlines, hconcerns, hpast⟩
    rw [hfailed, if_neg Bool.false_ne_true,
      transactionEvents_eq_pastEvents hrecord hfailure hlines]
    exact List.mem_filter.mpr ⟨hpast, hconcerns⟩

theorem signature_of_mem {e : SignatureEntry} {x : PastEvent}
    (hx : x ∈ entryEvents source scope task e) : x.signature = e.signature := by
  obtain ⟨-, record, lines, -, -, -, -, hpast⟩ := mem_entryEvents_iff.mp hx
  exact Log.signature_of_mem_pastEvents hpast

theorem time_of_mem (e : SignatureEntry) (x : PastEvent)
    (hx : x ∈ entryEvents source scope task e) : x.time.nanoseconds = entryTime source e := by
  obtain ⟨-, record, lines, hrecord, -, -, -, hpast⟩ := mem_entryEvents_iff.mp hx
  rw [Log.time_of_mem_pastEvents hpast, entryTime, hrecord]
  rfl

/-! ## Gathering -/

/-- What is fetched of a batch are the events of its transactions. -/
theorem flatMap_wanted (batch : List SignatureEntry) :
    (wanted batch).flatMap (transactionEvents source scope task) =
      batch.flatMap (entryEvents source scope task) := by
  induction batch with
  | nil => rfl
  | cons e batch ih =>
    rw [List.flatMap_cons, ← ih, entryEvents]
    cases hfailed : e.failed with
    | true => simp [wanted, hfailed]
    | false => simp [wanted, hfailed]

/-- How long each transaction of a batch takes to fetch, and its events. -/
def jobs (source : TransactionSource) (scope : Scope) (task : Option UInt64)
    (batch : List SignatureEntry) : List (Nat × List PastEvent) :=
  (wanted batch).map fun s => (source.delay s, transactionEvents source scope task s)

/-- A history after one more batch. -/
def withBatch (source : TransactionSource) (scope : Scope) (task : Option UInt64)
    (gathered : History) (batch : List SignatureEntry) : History :=
  { gathered with
    events := gathered.events ++ batch.flatMap (entryEvents source scope task)
    fetched := gathered.fetched ++ wanted batch
    duration := gathered.duration + (Batch.run (jobs source scope task batch)).2 }

/-- A batch is fetched whole; then it is seen whether there are enough events. -/
theorem gather_cons (limit : Nat) (gathered : History) (batch : List SignatureEntry)
    (batches : List (List SignatureEntry)) :
    gather source scope task limit gathered (batch :: batches) =
      if limit ≤ (withBatch source scope task gathered batch).events.length then
        withBatch source scope task gathered batch
      else gather source scope task limit (withBatch source scope task gathered batch) batches := by
  have hresults : (Batch.run (jobs source scope task batch)).1.flatten =
      batch.flatMap (entryEvents source scope task) := by
    rw [Batch.run_fst, jobs, List.map_map, ← flatMap_wanted]
    rfl
  rw [withBatch, ← hresults]
  rfl

private theorem wanted_append (as bs : List SignatureEntry) :
    wanted (as ++ bs) = wanted as ++ wanted bs := by
  simp [wanted]

/-- Several batches add the events of all of them, in order. -/
private theorem exists_foldl_withBatch (gathered : History) (batches : List (List SignatureEntry)) :
    ∃ duration, batches.foldl (withBatch source scope task) gathered =
      { gathered with
        events := gathered.events ++ batches.flatten.flatMap (entryEvents source scope task)
        fetched := gathered.fetched ++ wanted batches.flatten
        duration } := by
  induction batches generalizing gathered with
  | nil =>
    refine ⟨gathered.duration, ?_⟩
    rw [List.flatten_nil, List.flatMap_nil, wanted, List.filter_nil, List.map_nil,
      List.append_nil, List.append_nil]
    rfl
  | cons batch batches ih =>
    obtain ⟨duration, h⟩ := ih (withBatch source scope task gathered batch)
    refine ⟨duration, ?_⟩
    rw [List.foldl_cons, h, withBatch, List.flatten_cons, List.flatMap_append, wanted_append,
      List.append_assoc, List.append_assoc]

/-- Batches are worked through one after the other until so many events are there or none is left,
and no further. -/
private theorem exists_gather_eq_foldl {limit : Nat} {gathered : History}
    (hlt : gathered.events.length < limit) (batches : List (List SignatureEntry)) :
    ∃ k, gather source scope task limit gathered batches =
        (batches.take k).foldl (withBatch source scope task) gathered ∧
      (∀ j < k, ((batches.take j).foldl (withBatch source scope task) gathered).events.length <
        limit) ∧
      (k = batches.length ∨
        limit ≤ (gather source scope task limit gathered batches).events.length) := by
  induction batches generalizing gathered with
  | nil => exact ⟨0, rfl, fun j hj => absurd hj (Nat.not_lt_zero j), Or.inl rfl⟩
  | cons batch batches ih =>
    rw [gather_cons]
    by_cases hlimit : limit ≤ (withBatch source scope task gathered batch).events.length
    · rw [if_pos hlimit]
      refine ⟨1, rfl, fun j hj => ?_, Or.inr hlimit⟩
      rw [Nat.lt_one_iff.mp hj]
      exact hlt
    · rw [if_neg hlimit]
      obtain ⟨k, hgather, hbelow, henough⟩ := ih (Nat.lt_of_not_le hlimit)
      refine ⟨k + 1, hgather, fun j hj => ?_, henough.imp_left (congrArg Nat.succ)⟩
      cases j with
      | zero => exact hlt
      | succ j => exact hbelow j (Nat.lt_of_succ_lt_succ hj)

/-! ## The whole -/

/-- The signatures that a history looks at: those of the first address or, where there are none or
they cannot be listed, those of the second, and no more of them than the settings allow. -/
def chosen (source : TransactionSource) (monitor : MonitorSettings) (program network : Address)
    (scope : Scope) (before : Option Signature) : List SignatureEntry :=
  let most := monitor.maxSignatures.toNat
  let first := (source.signatures (addresses program network scope).1 most before).getD []
  let second := ((addresses program network scope).2.bind fun fallback =>
    source.signatures fallback most before).getD []
  (if first = [] then second else first).take most

/-- How many events a history returns at most. -/
def limitOf (monitor : MonitorSettings) (scope : Scope) (options : HistoryOptions) : Nat :=
  (options.limit.getD (usualLimit monitor scope)).toNat

/-- The second address is turned to only where the first has no signatures or they cannot be
listed. -/
theorem lookUp_eq (source : TransactionSource) (most : Nat) (before : Option Signature)
    (primary : Address) (fallback : Option Address) :
    lookUp source most before (primary, fallback) =
      if (source.signatures primary most before).getD [] = [] then
        ((fallback.bind fun address => source.signatures address most before).getD [],
          primary :: fallback.toList)
      else ((source.signatures primary most before).getD [], [primary]) := by
  rw [lookUp.eq_def]
  cases hfirst : source.signatures primary most before with
  | none => cases fallback <;> simp [hfirst]
  | some entries => cases entries <;> cases fallback <;> simp [hfirst]

theorem take_lookUp_fst (monitor : MonitorSettings) (program network : Address)
    (before : Option Signature) :
    (lookUp source monitor.maxSignatures.toNat before (addresses program network scope)).1.take
      monitor.maxSignatures.toNat = chosen source monitor program network scope before := by
  rw [lookUp_eq, chosen, apply_ite Prod.fst]

theorem replay_of_limit_eq_zero {monitor : MonitorSettings} {scope : Scope}
    {options : HistoryOptions} (hlimit : limitOf monitor scope options = 0)
    (source : TransactionSource) (program network : Address) :
    replay source monitor program network scope options = empty :=
  if_pos hlimit

/-- A history that has listed its signatures and fetched nothing yet. -/
def lookedUp (source : TransactionSource) (monitor : MonitorSettings) (program network : Address)
    (scope : Scope) (options : HistoryOptions) : History :=
  { empty with
    lookups := (lookUp source monitor.maxSignatures.toNat options.before
      (addresses program network scope)).2 }

theorem replay_of_limit_ne_zero {monitor : MonitorSettings} {scope : Scope}
    {options : HistoryOptions} (hlimit : limitOf monitor scope options ≠ 0)
    (source : TransactionSource) (program network : Address) :
    replay source monitor program network scope options =
      let gathered := gather source scope options.task (limitOf monitor scope options)
        (lookedUp source monitor program network scope options)
        (Batch.split monitor.fetchBatchSize.toNat
          (chosen source monitor program network scope options.before))
      { gathered with
        events := (newestFirst gathered.events).take (limitOf monitor scope options) } := by
  rw [← take_lookUp_fst, replay]
  exact if_neg hlimit

/-- How many batches there are. -/
def batchCount (source : TransactionSource) (monitor : MonitorSettings) (program network : Address)
    (scope : Scope) (options : HistoryOptions) : Nat :=
  (Batch.split monitor.fetchBatchSize.toNat
    (chosen source monitor program network scope options.before)).length

/-- The signatures in the first batches of a history. -/
def looked (source : TransactionSource) (monitor : MonitorSettings) (program network : Address)
    (scope : Scope) (options : HistoryOptions) (k : Nat) : List SignatureEntry :=
  (chosen source monitor program network scope options.before).take
    (k * max 1 monitor.fetchBatchSize.toNat)

/-- The events in the first batches of a history. -/
def found (source : TransactionSource) (monitor : MonitorSettings) (program network : Address)
    (scope : Scope) (options : HistoryOptions) (k : Nat) : List PastEvent :=
  (looked source monitor program network scope options k).flatMap
    (entryEvents source scope options.task)

/-- All batches together hold all signatures. -/
theorem looked_of_batchCount_le {monitor : MonitorSettings} {program network : Address}
    {options : HistoryOptions} {k : Nat}
    (h : batchCount source monitor program network scope options ≤ k) :
    looked source monitor program network scope options k =
      chosen source monitor program network scope options.before := by
  rw [looked, ← Batch.flatten_take_split, List.take_of_length_le h, Batch.flatten_split]

theorem exists_foldl_split (source : TransactionSource) (monitor : MonitorSettings)
    (program network : Address) (scope : Scope) (options : HistoryOptions) (k : Nat) :
    ∃ duration, ((Batch.split monitor.fetchBatchSize.toNat
      (chosen source monitor program network scope options.before)).take k).foldl
        (withBatch source scope options.task)
        (lookedUp source monitor program network scope options) =
      { lookedUp source monitor program network scope options with
        events := found source monitor program network scope options k
        fetched := wanted (looked source monitor program network scope options k)
        duration } := by
  rw [found, looked, ← Batch.flatten_take_split]
  exact exists_foldl_withBatch _ _

/-- A history fetches the signatures of so many batches as its limit asks for: fewer do not reach
it. -/
theorem exists_looked (source : TransactionSource) (program network : Address)
    {monitor : MonitorSettings} {scope : Scope} {options : HistoryOptions}
    (hlimit : limitOf monitor scope options ≠ 0) :
    ∃ k duration, replay source monitor program network scope options =
        { lookedUp source monitor program network scope options with
          events := (newestFirst (found source monitor program network scope options k)).take
            (limitOf monitor scope options)
          fetched := wanted (looked source monitor program network scope options k)
          duration } ∧
      (∀ j < k, (found source monitor program network scope options j).length <
        limitOf monitor scope options) ∧
      (k = batchCount source monitor program network scope options ∨
        limitOf monitor scope options ≤
          (found source monitor program network scope options k).length) := by
  obtain ⟨k, hgather, hbelow, henough⟩ := @exists_gather_eq_foldl source scope options.task _
    (lookedUp source monitor program network scope options) (Nat.pos_of_ne_zero hlimit)
    (Batch.split monitor.fetchBatchSize.toNat
      (chosen source monitor program network scope options.before))
  obtain ⟨duration, hk⟩ :=
    exists_foldl_split source monitor program network scope options k
  rw [hgather, hk] at henough
  refine ⟨k, duration, ?_, fun j hj => ?_, henough⟩
  · rw [replay_of_limit_ne_zero hlimit, hgather, hk]
  · obtain ⟨_, hj'⟩ := exists_foldl_split source monitor program network scope options j
    have hlt := hbelow j hj
    rwa [hj'] at hlt

/-- A history returns the blocks of a front of the signatures, put in order and cut to the limit. A
signature is left out only if there are enough events without it. -/
theorem exists_blocks (source : TransactionSource) (monitor : MonitorSettings)
    (program network : Address) (scope : Scope) (options : HistoryOptions) :
    ∃ looked, looked <+: chosen source monitor program network scope options.before ∧
      (replay source monitor program network scope options).events =
        ((newestBy (entryTime source) looked).flatMap (entryEvents source scope options.task)).take
          (limitOf monitor scope options) ∧
      (looked = chosen source monitor program network scope options.before ∨
        limitOf monitor scope options ≤
          (looked.flatMap (entryEvents source scope options.task)).length) := by
  by_cases hlimit : limitOf monitor scope options = 0
  · refine ⟨[], List.nil_prefix, ?_, Or.inr (by omega)⟩
    rw [replay_of_limit_eq_zero hlimit, hlimit, List.take_zero]
    rfl
  · obtain ⟨k, duration, hreplay, -, henough⟩ := exists_looked source program network hlimit
    refine ⟨looked source monitor program network scope options k, List.take_prefix _ _, ?_,
      henough.imp_left ?_⟩
    · rw [hreplay, found, ← newestBy_flatMap time_of_mem]
      rfl
    · rintro rfl
      exact looked_of_batchCount_le (Nat.le_refl _)

/-- What a history may return that looks at some signatures. -/
structure Returned (source : TransactionSource) (scope : Scope) (task : Option UInt64)
    (entries : List SignatureEntry) (limit : Nat) (events : List PastEvent) : Prop where
  /-- There are as many events as the limit allows. -/
  length_eq : events.length = min limit (entries.flatMap (entryEvents source scope task)).length
  /-- Times never increase, and transactions of one time come in the order of their signatures. -/
  ordered : events.Pairwise fun x y => y.time.nanoseconds ≤ x.time.nanoseconds ∧
    (x.time.nanoseconds = y.time.nanoseconds → x.signature = y.signature ∨
      [x.signature, y.signature].Sublist (entries.map (·.signature)))
  /-- The events of a transaction stand together and in order. None of them is missing at the end,
  unless they are the last ones. -/
  together : ∀ e ∈ entries, ∃ before block after, events = before ++ block ++ after ∧
    (∀ x ∈ block, x.signature = e.signature) ∧ (∀ x ∈ before ++ after, x.signature ≠ e.signature) ∧
    block <+: entryEvents source scope task e ∧
    (block = entryEvents source scope task e ∨ after = [])
  /-- Below the limit, all events are there. -/
  perm : events.length < limit → events.Perm (entries.flatMap (entryEvents source scope task))

/-- Blocks with the newest first are in order, and those of one time in that of their signatures. -/
private theorem pairwise_blocks {looked entries : List SignatureEntry}
    (h : looked.Sublist entries) :
    ((newestBy (entryTime source) looked).flatMap (entryEvents source scope task)).Pairwise
      fun x y => y.time.nanoseconds ≤ x.time.nanoseconds ∧
        (x.time.nanoseconds = y.time.nanoseconds → x.signature = y.signature ∨
          [x.signature, y.signature].Sublist (entries.map (·.signature))) := by
  rw [List.pairwise_flatMap]
  constructor
  · intro e _
    apply List.pairwise_of_forall_mem_list
    intro x hx y hy
    rw [time_of_mem e x hx, time_of_mem e y hy, signature_of_mem hx, signature_of_mem hy]
    exact ⟨Int.le_refl _, fun _ => Or.inl rfl⟩
  · rw [List.pairwise_iff_forall_sublist]
    intro d e hde x hx y hy
    rw [time_of_mem d x hx, time_of_mem e y hy, signature_of_mem hx, signature_of_mem hy]
    have hle := List.pairwise_iff_forall_sublist.mp
      (neverNewer_newestBy (entryTime source) looked) hde
    refine ⟨hle, fun htime => Or.inr ?_⟩
    exact ((sublist_of_newestBy hde htime).trans h).map (·.signature)

/-- The events of one of several transactions stand together when all are cut to a limit. -/
private theorem exists_take_flatMap {blocks : List SignatureEntry}
    (hdistinct : (blocks.map (·.signature)).Nodup) {e : SignatureEntry} (he : e ∈ blocks)
    (limit : Nat) :
    ∃ before block after, (blocks.flatMap (entryEvents source scope task)).take limit =
        before ++ block ++ after ∧
      (∀ x ∈ block, x.signature = e.signature) ∧
      (∀ x ∈ before ++ after, x.signature ≠ e.signature) ∧
      block <+: entryEvents source scope task e ∧
      (block = entryEvents source scope task e ∨ after = []) := by
  obtain ⟨front, back, rfl⟩ := List.append_of_mem he
  have hothers : ∀ d ∈ front ++ back, d.signature ≠ e.signature := by
    rw [List.map_append, List.map_cons, List.nodup_middle, ← List.map_append,
      List.nodup_cons] at hdistinct
    exact fun d hd heq => hdistinct.1 (heq ▸ List.mem_map_of_mem hd)
  have hother {entries : List SignatureEntry} (hsubset : entries ⊆ front ++ back) {n : Nat}
      {x : PastEvent} (hx : x ∈ (entries.flatMap (entryEvents source scope task)).take n) :
      x.signature ≠ e.signature := by
    obtain ⟨d, hd, hxd⟩ := List.mem_flatMap.mp (List.mem_of_mem_take hx)
    rw [signature_of_mem hxd]
    exact hothers d (hsubset hd)
  obtain ⟨room, hroom⟩ : ∃ room,
      room = limit - (front.flatMap (entryEvents source scope task)).length := ⟨_, rfl⟩
  have hsplit : ((front ++ e :: back).flatMap (entryEvents source scope task)).take limit =
      (front.flatMap (entryEvents source scope task)).take limit ++
        (entryEvents source scope task e).take room ++
        (back.flatMap (entryEvents source scope task)).take
          (room - (entryEvents source scope task e).length) := by
    rw [List.flatMap_append, List.flatMap_cons, List.take_append, List.take_append,
      ← List.append_assoc, hroom]
  refine ⟨_, _, _, hsplit, fun x hx => signature_of_mem (List.mem_of_mem_take hx), ?_,
    List.take_prefix _ _, ?_⟩
  · intro x hx
    rcases List.mem_append.mp hx with hx | hx
    · exact hother (List.subset_append_left front back) hx
    · exact hother (List.subset_append_right front back) hx
  · by_cases hfits : (entryEvents source scope task e).length ≤ room
    · left
      exact List.take_of_length_le hfits
    · right
      rw [Nat.sub_eq_zero_of_le (Nat.le_of_not_le hfits), List.take_zero]

/-- What a history returns of the signatures that it looks at. -/
theorem returned_replay (source : TransactionSource) (monitor : MonitorSettings)
    (program network : Address) (scope : Scope) (options : HistoryOptions)
    (hdistinct : ((chosen source monitor program network scope options.before).map
      (·.signature)).Nodup) :
    Returned source scope options.task
      (chosen source monitor program network scope options.before)
      (limitOf monitor scope options)
      (replay source monitor program network scope options).events := by
  obtain ⟨looked, hlooked, hevents, henough⟩ :=
    exists_blocks source monitor program network scope options
  have hperm := newestBy_perm (entryTime source) looked
  have hblocks : ∀ e ∈ newestBy (entryTime source) looked,
      e ∈ chosen source monitor program network scope options.before :=
    fun e he => hlooked.subset (hperm.mem_iff.mp he)
  have hnodup : ((newestBy (entryTime source) looked).map (·.signature)).Nodup := by
    rw [(hperm.map _).nodup_iff]
    exact hdistinct.sublist (hlooked.sublist.map _)
  have hlength : (replay source monitor program network scope options).events.length =
      min (limitOf monitor scope options)
        (looked.flatMap (entryEvents source scope options.task)).length := by
    rw [hevents, List.length_take, (hperm.flatMap_right _).length_eq]
  refine ⟨?_, ?_, ?_, ?_⟩
  · rcases henough with heq | hle
    · rw [hlength, heq]
    · obtain ⟨rest, hrest⟩ := hlooked
      rw [hlength, ← hrest, List.flatMap_append, List.length_append]
      omega
  · rw [hevents]
    exact (pairwise_blocks hlooked.sublist).sublist (List.take_sublist _ _)
  · intro e he
    rw [hevents]
    by_cases hmem : e ∈ newestBy (entryTime source) looked
    · exact exists_take_flatMap hnodup hmem _
    · refine ⟨_, [], [], by simp only [List.append_nil]; rfl, by simp, ?_, List.nil_prefix,
        Or.inr rfl⟩
      intro x hx heq
      rw [List.append_nil] at hx
      obtain ⟨d, hd, hxd⟩ := List.mem_flatMap.mp (List.mem_of_mem_take hx)
      rw [signature_of_mem hxd] at heq
      have hsame := List.inj_on_of_nodup_map hdistinct (hblocks d hd) he heq
      exact hmem (hsame ▸ hd)
  · intro hlt
    rw [hlength] at hlt
    rcases henough with heq | hle
    · rw [hevents, ← heq, List.take_of_length_le]
      · exact hperm.flatMap_right _
      · rw [(hperm.flatMap_right _).length_eq]
        omega
    · omega

/-! ## A history of two transactions -/

/-- The transaction in which a node takes on a task of session 1. -/
def claimOf (task : UInt64) (signature : Signature) (blockTime : Option Int) :
    TransactionRecord where
  signature
  logs := some ["begins", Log.line (.taskClaimed ⟨1, task, .replicate 32 1, 5⟩)]
  blockTime
  failure := none

/-- A source that knows of two transactions, the first of them without a time. -/
def twoClaims : TransactionSource where
  signatures _ _ _ := some [⟨.replicate 64 1, false⟩, ⟨.replicate 64 2, false⟩]
  transaction? signature :=
    if signature = .replicate 64 1 then some (claimOf 0 signature none)
    else some (claimOf 1 signature (some 9))
  delay _ := 3
  clock _ := 5

theorem returned_twoClaims :
    ((chosen twoClaims {} (.replicate 32 1) (.replicate 32 2) .program none).map
        (·.signature)).Nodup ∧
      (replay twoClaims {} (.replicate 32 1) (.replicate 32 2) .program
        { limit := some 1 }).events.length = 1 := by
  have hdistinct : ((chosen twoClaims {} (.replicate 32 1) (.replicate 32 2) .program none).map
      (·.signature)).Nodup := by decide
  have hlength := (returned_replay twoClaims {} (.replicate 32 1) (.replicate 32 2) .program
    { limit := some 1 } hdistinct).length_eq
  have hevents : 0 < (entryEvents twoClaims .program none ⟨.replicate 64 1, false⟩).length := by
    decide +kernel
  refine ⟨hdistinct, ?_⟩
  rw [hlength]
  change min 1 (entryEvents twoClaims .program none ⟨.replicate 64 1, false⟩ ++ _).length = 1
  rw [List.length_append]
  omega

end ComputeNet.History
