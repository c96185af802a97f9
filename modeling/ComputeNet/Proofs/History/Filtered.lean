import ComputeNet.Client
import ComputeNet.Proofs.History.Plain

/-!
# What filters and lost transactions leave of a history

If its limit is high enough, a history returns all the events of its signatures, the newest first
(`events_replay_of_le`). Items may as well be left out before the newest are put first as afterwards
(`newestBy_filter`). So a filter for a task and transactions that are lost (`Loses`) take out the
events that they are about and nothing else, and leave the others in order (`history_leaves_out`).
-/

namespace ComputeNet

/-- Items may be left out before or after the newest are put first. -/
theorem newestBy_filter {α : Type} (time : α → Int) (keep : α → Bool) (items : List α) :
    newestBy time (items.filter keep) = (newestBy time items).filter keep := by
  apply eq_of_filter_eq (neverNewer_newestBy time (items.filter keep))
  · exact (neverNewer_newestBy time items).filter keep
  · intro t
    calc (newestBy time (items.filter keep)).filter (time · = t)
      _ = (items.filter keep).filter (time · = t) := filter_newestBy time _ t
      _ = (items.filter (time · = t)).filter keep := List.filter_comm _ keep items
      _ = ((newestBy time items).filter (time · = t)).filter keep := by rw [filter_newestBy]
      _ = ((newestBy time items).filter keep).filter (time · = t) := List.filter_comm keep _ _

/-- An event concerns a task if it names that task or none. -/
private theorem Event.concernsTask_some (task : UInt64) (event : Event) :
    event.concernsTask (some task) = event.taskSlot?.all (· = task) := by
  rw [concernsTask.eq_def]
  cases event.taskSlot? <;> rfl

namespace History

/-! ## A limit that leaves nothing out -/

/-- With a limit that is high enough, all events are returned, the newest first. -/
theorem events_replay_of_le {source : TransactionSource} {monitor : MonitorSettings}
    {program network : Address} {scope : Scope} {options : HistoryOptions}
    (hle : ((chosen source monitor program network scope options.before).flatMap
      (entryEvents source scope options.task)).length ≤ limitOf monitor scope options) :
    (replay source monitor program network scope options).events =
      newestBy (·.time.nanoseconds)
        ((chosen source monitor program network scope options.before).flatMap
          (entryEvents source scope options.task)) := by
  obtain ⟨looked, ⟨rest, hrest⟩, hevents, henough⟩ :=
    exists_blocks source monitor program network scope options
  have hlooked : looked.flatMap (entryEvents source scope options.task) =
      (chosen source monitor program network scope options.before).flatMap
        (entryEvents source scope options.task) := by
    rcases henough with rfl | henough
    · rfl
    · -- The limit is reached already, so that there is no room for an event of the rest.
      rw [← hrest, List.flatMap_append, List.length_append] at hle
      have hnone : rest.flatMap (entryEvents source scope options.task) = [] := by
        apply List.eq_nil_of_length_eq_zero
        omega
      rw [← hrest, List.flatMap_append, hnone, List.append_nil]
  rw [hevents, ← newestBy_flatMap time_of_mem, hlooked]
  apply List.take_of_length_le
  rw [(newestBy_perm _ _).length_eq]
  exact hle

/-- If some of the events of a history are left out among its signatures, just these are left out of
what it returns, as long as the limit of both is high enough. -/
theorem events_replay_filter {source source' : TransactionSource}
    {monitor monitor' : MonitorSettings} {program network : Address} {scope : Scope}
    {options options' : HistoryOptions} {keep : PastEvent → Bool}
    (hle : ((chosen source monitor program network scope options.before).flatMap
      (entryEvents source scope options.task)).length ≤ limitOf monitor scope options)
    (hlimit : limitOf monitor' scope options' = limitOf monitor scope options)
    (hkeep : (chosen source' monitor' program network scope options'.before).flatMap
        (entryEvents source' scope options'.task) =
      ((chosen source monitor program network scope options.before).flatMap
        (entryEvents source scope options.task)).filter keep) :
    (replay source' monitor' program network scope options').events =
      (replay source monitor program network scope options).events.filter keep := by
  have hle' : ((chosen source' monitor' program network scope options'.before).flatMap
      (entryEvents source' scope options'.task)).length ≤ limitOf monitor' scope options' := by
    rw [hkeep, hlimit]
    exact Nat.le_trans (List.length_filter_le keep _) hle
  rw [events_replay_of_le hle', hkeep, newestBy_filter, events_replay_of_le hle]

/-! ## Filters for a task -/

/-- A filter for a task leaves out the events that name another one. -/
private theorem transactionEvents_some (source : TransactionSource) (scope : Scope) (task : UInt64)
    (signature : Signature) :
    transactionEvents source scope (some task) signature =
      (transactionEvents source scope none signature).filter
        (·.event.taskSlot?.all (· = task)) := by
  have hall (event : Event) : event.concernsTask none = true := rfl
  rw [transactionEvents, transactionEvents]
  cases source.transaction? signature with
  | none => rfl
  | some record =>
    dsimp only
    split
    · simp only [hall, Event.concernsTask_some, List.filter_true, List.filter_map]
      rfl
    · rfl

private theorem entryEvents_some (source : TransactionSource) (scope : Scope) (task : UInt64)
    (e : SignatureEntry) :
    entryEvents source scope (some task) e =
      (entryEvents source scope none e).filter (·.event.taskSlot?.all (· = task)) := by
  rw [entryEvents, entryEvents]
  by_cases hfailed : e.failed = true
  · rw [if_pos hfailed, if_pos hfailed, List.filter_nil]
  · rw [if_neg hfailed, if_neg hfailed, transactionEvents_some]

/-! ## Lost transactions -/

/-- Some of the transactions in a list of signatures are shown as failed. -/
def markFailed (failing : Signature → Bool) (e : SignatureEntry) : SignatureEntry :=
  { e with failed := e.failed || failing e.signature }

/-- Some transactions of a source yield nothing anymore. Those in `failing` are listed as failed;
the others in `lost` cannot be fetched, are not found, have no logs or turn out to have failed. The
rest is as before, except for how long fetches take and what the clock shows. -/
structure Loses (lost failing : Signature → Bool) (source source' : TransactionSource) : Prop where
  listed : ∀ address limit before, source'.signatures address limit before =
    (source.signatures address limit before).map (·.map (markFailed failing))
  barren : ∀ signature record, lost signature → source'.transaction? signature = some record →
    failing signature ∨ record.logs = none ∨ record.failure.isSome
  kept : ∀ signature, lost signature = false → failing signature = false ∧
    source'.transaction? signature = source.transaction? signature

/-- Other delays and another clock lose nothing. -/
private theorem loses_nothing (source : TransactionSource) (delay : Signature → Nat)
    (clock : Signature → Int) :
    Loses (fun _ => false) (fun _ => false) source { source with delay, clock } where
  listed address limit before := by
    have hmark : markFailed (fun _ => false) = id := by
      funext e
      simp [markFailed]
    rw [hmark, List.map_id_fun, Option.map_id_fun, id]
  barren _ _ hlost := by cases hlost
  kept _ _ := ⟨rfl, rfl⟩

variable {lost failing : Signature → Bool} {source source' : TransactionSource}

theorem Loses.chosen_eq (h : Loses lost failing source source') (monitor : MonitorSettings)
    (program network : Address) (scope : Scope) (before : Option Signature) :
    chosen source' monitor program network scope before =
      (chosen source monitor program network scope before).map (markFailed failing) := by
  have hgetD (entries : Option (List SignatureEntry)) :
      (entries.map (·.map (markFailed failing))).getD [] =
        (entries.getD []).map (markFailed failing) := by
    cases entries <;> rfl
  rw [chosen, chosen]
  obtain ⟨primary, fallback⟩ := addresses program network scope
  have hsecond : (fallback.bind fun address =>
        source'.signatures address monitor.maxSignatures.toNat before).getD [] =
      ((fallback.bind fun address =>
        source.signatures address monitor.maxSignatures.toNat before).getD []).map
          (markFailed failing) := by
    cases fallback with
    | none => rfl
    | some address =>
      rw [Option.bind_some, Option.bind_some, h.listed, hgetD]
  dsimp only
  rw [h.listed, hgetD, hsecond, List.map_take]
  by_cases hfirst : (source.signatures primary monitor.maxSignatures.toNat before).getD [] = []
  · rw [if_pos hfirst, if_pos (List.map_eq_nil_iff.mpr hfirst)]
  · rw [if_neg hfirst, if_neg (mt List.map_eq_nil_iff.mp hfirst)]

/-- A lost transaction yields nothing. -/
private theorem Loses.entryEvents_eq_nil (h : Loses lost failing source source')
    {e : SignatureEntry} (he : lost e.signature) (scope : Scope) (task : Option UInt64) :
    entryEvents source' scope task (markFailed failing e) = [] := by
  apply List.eq_nil_iff_forall_not_mem.mpr
  intro x hx
  obtain ⟨hlisted, record, lines, hrecord, hfailure, hlines, -⟩ := mem_entryEvents_iff.mp hx
  rcases h.barren e.signature record he hrecord with hfailing | hlogs | hfailed
  · simp [markFailed, hfailing] at hlisted
  · cases hlogs.symm.trans hlines
  · rw [hfailure] at hfailed
    cases hfailed

/-- Of the events of a transaction that is lost none is left, of those of others all are. -/
private theorem Loses.entryEvents_eq (h : Loses lost failing source source') {e : SignatureEntry}
    (hwritten : Written source e) (scope : Scope) (task : Option UInt64) :
    entryEvents source' scope task (markFailed failing e) =
      (entryEvents source scope task e).filter (fun x => !lost x.signature) := by
  cases hlost : lost e.signature with
  | true =>
    rw [h.entryEvents_eq_nil hlost]
    symm
    apply List.filter_eq_nil_iff.mpr
    intro x hx
    simp [signature_of_mem hx, hlost]
  | false =>
    obtain ⟨hfailing, hrecord⟩ := h.kept e.signature hlost
    have hmark : markFailed failing e = e := by simp [markFailed, hfailing]
    rw [hmark, entryEvents_congr hrecord hwritten]
    symm
    apply List.filter_eq_self.mpr
    intro x hx
    simp [signature_of_mem hx, hlost]

end History

/-! ## Histories of a client -/

namespace Client

/-- The client with another size of batches. -/
def batching (client : Client) (size : UInt64) : Client :=
  { client with monitor := { client.monitor with fetchBatchSize := size } }

/-- The signatures that a history of a client looks at. -/
def chosen (client : Client) (source : TransactionSource) (scope : Scope)
    (before : Option Signature) : List SignatureEntry :=
  History.chosen source client.monitor client.program client.network scope before

/-- The task whose events are asked for: in the program as a whole there is none. -/
def askedTask (options : HistoryOptions) : Scope → Option UInt64
  | .session _ => options.task
  | .program => none

theorem history_eq (client : Client) (source : TransactionSource) (scope : Scope)
    (options : HistoryOptions) :
    client.history source scope options = History.replay source client.monitor client.program
      client.network scope { options with task := askedTask options scope } := by
  cases scope <;> rfl

/-- A history of a client that has room for all its events. The times of its transactions can be
written. -/
structure Roomy (client : Client) (source : TransactionSource) (scope : Scope)
    (options : HistoryOptions) : Prop where
  written : ∀ e ∈ client.chosen source scope options.before, History.Written source e
  length_le : ((client.chosen source scope options.before).flatMap
    (History.entryEvents source scope (askedTask options scope))).length ≤
      History.limitOf client.monitor scope options

/-- Lost transactions take their events out of a history. -/
theorem Roomy.history_of_loses {client : Client} {source source' : TransactionSource}
    {scope : Scope} {options : HistoryOptions} {lost failing : Signature → Bool}
    (h : Roomy client source scope options) (hloses : History.Loses lost failing source source')
    (size : UInt64) :
    ((client.batching size).history source' scope options).events =
      (client.history source scope options).events.filter (fun x => !lost x.signature) := by
  rw [history_eq, history_eq]
  refine History.events_replay_filter h.length_le rfl ?_
  rw [hloses.chosen_eq, List.flatMap_map, List.filter_flatMap]
  exact List.flatMap_congr fun e he => hloses.entryEvents_eq (h.written e he) scope _

/-- A filter for a task takes the events that name another one out of the history of a session. -/
private theorem Roomy.history_of_task {client : Client} {source : TransactionSource} {slot : UInt64}
    {options : HistoryOptions} (h : Roomy client source (.session slot) options)
    (htask : options.task = none) (size task : UInt64) (delay : Signature → Nat)
    (clock : Signature → Int) :
    ((client.batching size).history { source with delay, clock } (.session slot)
        { options with task := some task }).events =
      (client.history source (.session slot) options).events.filter
        (·.event.taskSlot?.all (· = task)) := by
  rw [history_eq, history_eq]
  refine History.events_replay_filter h.length_le rfl ?_
  change (client.chosen source (.session slot) options.before).flatMap
      (History.entryEvents { source with delay, clock } (.session slot) (some task)) =
    ((client.chosen source (.session slot) options.before).flatMap
      (History.entryEvents source (.session slot) options.task)).filter _
  rw [htask, List.filter_flatMap]
  refine List.flatMap_congr fun e he => ?_
  rw [← History.entryEvents_some]
  exact History.entryEvents_congr rfl (h.written e he)

/-- A filter for a task leaves out of the history of a session the events that name another task;
lost transactions leave out their own; the history of the program knows no filter for a task. What
is left keeps its order, whatever the batches, the delays of the fetches and the clock are. -/
theorem history_leaves_out (client : Client) (source : TransactionSource) (scope : Scope)
    (options : HistoryOptions) (hroomy : Roomy client source scope options) (size : UInt64) :
    (∀ slot, scope = .session slot → options.task = none →
      ∀ (task : UInt64) (delay : Signature → Nat) (clock : Signature → Int),
        ((client.batching size).history { source with delay, clock } scope
            { options with task := some task }).events =
          (client.history source scope options).events.filter
            (·.event.taskSlot?.all (· = task))) ∧
    (∀ lost failing source', History.Loses lost failing source source' →
      ((client.batching size).history source' scope options).events =
        (client.history source scope options).events.filter (fun x => !lost x.signature)) ∧
    (scope = .program →
      ∀ (task : Option UInt64) (delay : Signature → Nat) (clock : Signature → Int),
        ((client.batching size).history { source with delay, clock } scope
            { options with task }).events =
          (client.history source scope options).events) := by
  refine ⟨?_, ?_, ?_⟩
  · rintro slot rfl htask task delay clock
    exact hroomy.history_of_task htask size task delay clock
  · intro lost failing source' hloses
    exact hroomy.history_of_loses hloses size
  · rintro rfl task delay clock
    have hsame := hroomy.history_of_loses (History.loses_nothing source delay clock) size
    exact hsame.trans (List.filter_eq_self.mpr fun _ _ => rfl)

/-! ## A history of two transactions of which one is lost -/

/-- The client of some network. -/
def plainClient : Client where
  program := .replicate 32 1
  network := .replicate 32 2

/-- A source that cannot fetch the first of two transactions. -/
def secondClaim : TransactionSource :=
  { History.fallingClaims with
    transaction? := fun signature =>
      if signature = .replicate 64 1 then none else History.fallingClaims.transaction? signature }

private theorem loses_secondClaim :
    History.Loses (· = .replicate 64 1) (fun _ => false) History.fallingClaims secondClaim where
  listed _ _ _ := rfl
  barren signature record hlost hrecord := by
    simp only [decide_eq_true_eq] at hlost
    subst hlost
    cases hrecord
  kept signature hkept := by
    simp only [decide_eq_false_iff_not] at hkept
    exact ⟨rfl, if_neg hkept⟩

/-- The two events of the source. -/
def claimEvents : List PastEvent :=
  [⟨⟨.taskClaimed ⟨1, 0, .replicate 32 1, 5⟩, .replicate 64 1⟩, ⟨9000000000, false⟩⟩,
    ⟨⟨.taskClaimed ⟨1, 1, .replicate 32 1, 5⟩, .replicate 64 2⟩, ⟨7000000000, false⟩⟩]

set_option maxRecDepth 10000 in
theorem flatMap_fallingClaims :
    (plainClient.chosen History.fallingClaims (.session 1) none).flatMap
      (History.entryEvents History.fallingClaims (.session 1) none) = claimEvents := by
  decide +kernel

theorem roomy_fallingClaims : Roomy plainClient History.fallingClaims (.session 1) {} where
  written := History.dated_fallingClaims.written
  length_le := by
    change List.length (List.flatMap _ (plainClient.chosen History.fallingClaims (.session 1)
      none)) ≤ _
    rw [askedTask, flatMap_fallingClaims]
    decide

theorem history_fallingClaims :
    (plainClient.history History.fallingClaims (.session 1) {}).events = claimEvents := by
  have hplain := History.events_replay_of_dated _ _ _ _ _ {} History.dated_fallingClaims
  rw [history_eq]
  refine hplain.trans ?_
  change (List.flatMap _ (plainClient.chosen History.fallingClaims (.session 1) none)).take _ = _
  rw [flatMap_fallingClaims]
  rfl

/-- Of the two events one is left where the other is lost, and one where the task of the other is
not asked for. -/
theorem history_leaves_out_fallingClaims :
    Roomy plainClient History.fallingClaims (.session 1) {} ∧
    ((plainClient.batching 1).history secondClaim (.session 1) {}).events = claimEvents.drop 1 ∧
    ((plainClient.batching 0).history { History.fallingClaims with clock := fun _ => 8 }
        (.session 1) { task := some 0 }).events = claimEvents.take 1 := by
  obtain ⟨-, hlost, -⟩ := history_leaves_out plainClient History.fallingClaims (.session 1) {}
    roomy_fallingClaims 1
  obtain ⟨htask, -, -⟩ := history_leaves_out plainClient History.fallingClaims (.session 1) {}
    roomy_fallingClaims 0
  refine ⟨roomy_fallingClaims, ?_, ?_⟩
  · rw [hlost _ _ _ loses_secondClaim, history_fallingClaims]
    decide
  · refine (htask 1 rfl rfl 0 History.fallingClaims.delay fun _ => 8).trans ?_
    rw [history_fallingClaims]
    decide

end Client

end ComputeNet
