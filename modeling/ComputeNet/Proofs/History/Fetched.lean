import Mathlib.Order.Bounds.Basic
import ComputeNet.Proofs.History.Returned

/-!
# What a history asks for

A history fetches no more than it needs: the transactions of the least number of batches whose
events reach the limit, or those of all batches where none does (`Needed`). Apart from these it
looks up the signatures of one address, and of a second one only where the first has none
(`asksNoMore_replay`).

That the calls of a history are those that it lists is a statement about what it depends on: another
source that gives the same answers to these calls gives the same history (`replay_congr`).
-/

namespace ComputeNet.History

variable {source source' : TransactionSource} {monitor : MonitorSettings}
  {program network : Address} {scope : Scope} {options : HistoryOptions}

/-! ## Lookups -/

private theorem lookUp_congr {most : Nat} {before : Option Signature}
    {where? : Address × Option Address} (h : ∀ a ∈ (lookUp source most before where?).2,
      source'.signatures a most before = source.signatures a most before) :
    lookUp source' most before where? = lookUp source most before where? := by
  obtain ⟨primary, fallback⟩ := where?
  rw [lookUp_eq] at h
  have hprimary : source'.signatures primary most before =
      source.signatures primary most before := by
    apply h
    split <;> exact List.mem_cons_self
  rw [lookUp_eq, lookUp_eq, hprimary]
  split
  next hnone =>
    rw [if_pos hnone] at h
    cases fallback with
    | none => rfl
    | some fallback =>
      have hfallback := h fallback (List.mem_cons_of_mem _ List.mem_cons_self)
      rw [Option.bind_some, Option.bind_some, hfallback]
  next => rfl

/-! ## Fetches -/

private theorem fetched_subset_gather (task : Option UInt64) (limit : Nat) (gathered : History)
    (batches : List (List SignatureEntry)) :
    gathered.fetched ⊆ (gather source scope task limit gathered batches).fetched := by
  induction batches generalizing gathered with
  | nil => exact List.Subset.refl _
  | cons batch batches ih =>
    have hbatch : gathered.fetched ⊆ (withBatch source scope task gathered batch).fetched :=
      List.subset_append_left _ _
    rw [gather_cons]
    split
    · exact hbatch
    · exact List.Subset.trans hbatch (ih _)

private theorem withBatch_congr {task : Option UInt64} (gathered : History)
    {batch : List SignatureEntry} (h : ∀ s ∈ wanted batch, source'.delay s = source.delay s ∧
      transactionEvents source' scope task s = transactionEvents source scope task s) :
    withBatch source' scope task gathered batch = withBatch source scope task gathered batch := by
  have hjobs : jobs source' scope task batch = jobs source scope task batch :=
    List.map_congr_left fun s hs => Prod.ext (h s hs).1 (h s hs).2
  have hevents : batch.flatMap (entryEvents source' scope task) =
      batch.flatMap (entryEvents source scope task) := by
    rw [← flatMap_wanted, ← flatMap_wanted]
    exact List.flatMap_congr fun s hs => (h s hs).2
  rw [withBatch, withBatch, hjobs, hevents]

/-- Gathering depends on nothing but the transactions that it fetches. -/
private theorem gather_congr {task : Option UInt64} {limit : Nat} {gathered : History}
    {batches : List (List SignatureEntry)}
    (h : ∀ s ∈ (gather source scope task limit gathered batches).fetched,
      source'.delay s = source.delay s ∧
        transactionEvents source' scope task s = transactionEvents source scope task s) :
    gather source' scope task limit gathered batches =
      gather source scope task limit gathered batches := by
  induction batches generalizing gathered with
  | nil => rfl
  | cons batch batches ih =>
    have hwanted : wanted batch ⊆
        (gather source scope task limit gathered (batch :: batches)).fetched := by
      have hbatch : wanted batch ⊆ (withBatch source scope task gathered batch).fetched :=
        List.subset_append_right _ _
      rw [gather_cons]
      split
      · exact hbatch
      · exact List.Subset.trans hbatch (fetched_subset_gather _ _ _ _)
    have hbatch := withBatch_congr gathered fun s hs => h s (hwanted hs)
    rw [gather_cons] at h
    rw [gather_cons, gather_cons, hbatch]
    split
    · rfl
    next hlimit =>
      rw [if_neg hlimit] at h
      exact ih h

/-! ## The whole -/

/-- Another source gives the same answers to the calls of a history. -/
structure AnswersAlike (source source' : TransactionSource) (monitor : MonitorSettings)
    (options : HistoryOptions) (history : History) : Prop where
  signatures : ∀ a ∈ history.lookups,
    source'.signatures a monitor.maxSignatures.toNat options.before =
      source.signatures a monitor.maxSignatures.toNat options.before
  transaction? : ∀ s ∈ history.fetched, source'.transaction? s = source.transaction? s
  delay : ∀ s ∈ history.fetched, source'.delay s = source.delay s
  clock : ∀ s ∈ history.fetched, source'.clock s = source.clock s

theorem lookups_replay (source : TransactionSource) (program network : Address)
    (hlimit : limitOf monitor scope options ≠ 0) :
    (replay source monitor program network scope options).lookups =
      (lookUp source monitor.maxSignatures.toNat options.before
        (addresses program network scope)).2 := by
  obtain ⟨k, duration, hreplay, -, -⟩ := exists_looked source program network hlimit
  rw [hreplay]
  rfl

theorem lookUp_snd (source : TransactionSource) (most : Nat) (before : Option Signature)
    (where? : Address × Option Address) :
    (lookUp source most before where?).2 =
      where?.1 :: if (source.signatures where?.1 most before).getD [] = [] then where?.2.toList
        else [] := by
  rw [lookUp_eq, apply_ite Prod.snd, apply_ite (List.cons where?.1)]

/-- A history makes two lookups only for a session whose first lookup failed or found nothing. -/
theorem lookups_cases (source : TransactionSource) (monitor : MonitorSettings)
    (program network : Address) (scope : Scope) (options : HistoryOptions) :
    (replay source monitor program network scope options).lookups.length ≤ 1 ∨
      (replay source monitor program network scope options).lookups.length = 2 ∧
      (∃ slot, scope = .session slot) ∧
      (source.signatures (addresses program network scope).1 monitor.maxSignatures.toNat
          options.before).getD [] = [] := by
  by_cases hlimit : limitOf monitor scope options = 0
  · rw [replay_of_limit_eq_zero hlimit]
    exact Or.inl (Nat.zero_le 1)
  rw [lookups_replay source program network hlimit, lookUp_snd]
  split
  next hnone =>
    cases scope with
    | program => exact Or.inl (Nat.le_refl 1)
    | session slot => exact Or.inr ⟨rfl, ⟨slot, rfl⟩, hnone⟩
  next => exact Or.inl (Nat.le_refl 1)

/-- A history depends on nothing but the answers to its calls. -/
theorem replay_congr
    (h : AnswersAlike source source' monitor options
      (replay source monitor program network scope options)) :
    replay source' monitor program network scope options =
      replay source monitor program network scope options := by
  by_cases hlimit : limitOf monitor scope options = 0
  · rw [replay_of_limit_eq_zero hlimit, replay_of_limit_eq_zero hlimit]
  have hlookUp := lookUp_congr (lookups_replay source program network hlimit ▸ h.signatures)
  have hstart : lookedUp source' monitor program network scope options =
      lookedUp source monitor program network scope options := by
    rw [lookedUp, lookedUp, hlookUp]
  have hchosen : chosen source' monitor program network scope options.before =
      chosen source monitor program network scope options.before := by
    rw [← take_lookUp_fst, hlookUp, take_lookUp_fst]
  have hevents : ∀ s ∈ (replay source monitor program network scope options).fetched,
      source'.delay s = source.delay s ∧ transactionEvents source' scope options.task s =
        transactionEvents source scope options.task s := by
    intro s hs
    refine ⟨h.delay s hs, ?_⟩
    rw [transactionEvents, transactionEvents, h.transaction? s hs, h.clock s hs]
  rw [replay_of_limit_ne_zero hlimit source] at hevents ⊢
  rw [replay_of_limit_ne_zero hlimit source', hstart, hchosen, gather_congr hevents]

/-- So many batches are needed: the least number whose events reach the limit, or all of them where
none does. -/
def Needed (source : TransactionSource) (monitor : MonitorSettings) (program network : Address)
    (scope : Scope) (options : HistoryOptions) (k : Nat) : Prop :=
  IsLeast {j | limitOf monitor scope options ≤
      (found source monitor program network scope options j).length} k ∨
    (∀ j, (found source monitor program network scope options j).length <
        limitOf monitor scope options) ∧
      k = batchCount source monitor program network scope options

/-- The calls of a history are those that it needs. -/
structure AsksNoMore (source : TransactionSource) (monitor : MonitorSettings)
    (program network : Address) (scope : Scope) (options : HistoryOptions) (history : History) :
    Prop where
  /-- Where no event is wanted, nothing is asked for. -/
  eq_empty : limitOf monitor scope options = 0 → history = empty
  /-- Of the batches that are needed, the transactions that did not fail are fetched, once for each
  time that they are listed. The limit is not reached without the last of these batches. -/
  fetched_eq : limitOf monitor scope options ≠ 0 → ∃ k,
    Needed source monitor program network scope options k ∧
    history.fetched = wanted ((chosen source monitor program network scope options.before).take
      (k * max 1 monitor.fetchBatchSize.toNat)) ∧
    ∀ j < k, (found source monitor program network scope options j).length <
      limitOf monitor scope options
  fetched_length_le : history.fetched.length ≤ monitor.maxSignatures.toNat
  fetched_nodup : ((chosen source monitor program network scope options.before).map
    (·.signature)).Nodup → history.fetched.Nodup
  /-- One address is looked up and, if it has no signatures or they cannot be listed, the one to
  turn to. -/
  lookups_eq : limitOf monitor scope options ≠ 0 → history.lookups =
    (addresses program network scope).1 ::
      if (source.signatures (addresses program network scope).1 monitor.maxSignatures.toNat
        options.before).getD [] = [] then (addresses program network scope).2.toList else []
  lookups_length_le : history.lookups.length ≤ 2
  /-- Only for a session are there two lookups, the first of which failed or found nothing. -/
  of_two_lookups : history.lookups.length = 2 → (∃ slot, scope = .session slot) ∧
    (source.signatures (addresses program network scope).1 monitor.maxSignatures.toNat
        options.before = none ∨
      source.signatures (addresses program network scope).1 monitor.maxSignatures.toNat
        options.before = some [])
  /-- Nothing else is asked for. -/
  eq_of_answersAlike : ∀ source', AnswersAlike source source' monitor options history →
    replay source' monitor program network scope options = history

private theorem needed_of_below {k : Nat}
    (hbelow : ∀ j < k, (found source monitor program network scope options j).length <
      limitOf monitor scope options)
    (henough : k = batchCount source monitor program network scope options ∨
      limitOf monitor scope options ≤
        (found source monitor program network scope options k).length) :
    Needed source monitor program network scope options k := by
  by_cases hlimit : limitOf monitor scope options ≤
      (found source monitor program network scope options k).length
  · exact Or.inl ⟨hlimit, fun j hj => Nat.le_of_not_lt fun hlt => Nat.not_lt.mpr hj (hbelow j hlt)⟩
  · have hcount := henough.resolve_right hlimit
    refine Or.inr ⟨fun j => ?_, hcount⟩
    rcases Nat.lt_or_ge j k with hlt | hge
    · exact hbelow j hlt
    · have hsame : found source monitor program network scope options j =
          found source monitor program network scope options k := by
        rw [found, found, looked_of_batchCount_le (hcount ▸ hge), hcount,
          looked_of_batchCount_le (Nat.le_refl _)]
      rw [hsame]
      exact Nat.lt_of_not_le hlimit

private theorem wanted_sublist (entries : List SignatureEntry) :
    (wanted entries).Sublist (entries.map (·.signature)) :=
  List.filter_sublist.map _

/-- What is fetched are signatures that were listed. -/
private theorem fetched_replay_sublist (source : TransactionSource) (monitor : MonitorSettings)
    (program network : Address) (scope : Scope) (options : HistoryOptions) :
    (replay source monitor program network scope options).fetched.Sublist
      ((chosen source monitor program network scope options.before).map (·.signature)) := by
  by_cases hlimit : limitOf monitor scope options = 0
  · rw [replay_of_limit_eq_zero hlimit]
    exact List.nil_sublist _
  · obtain ⟨k, duration, hreplay, -, -⟩ := exists_looked source program network hlimit
    rw [hreplay]
    exact (wanted_sublist _).trans ((List.take_sublist _ _).map _)

private theorem length_chosen_le (source : TransactionSource) (monitor : MonitorSettings)
    (program network : Address) (scope : Scope) (before : Option Signature) :
    (chosen source monitor program network scope before).length ≤ monitor.maxSignatures.toNat :=
  List.length_take_le _ _

/-- A history asks for no more than it needs. -/
theorem asksNoMore_replay (source : TransactionSource) (monitor : MonitorSettings)
    (program network : Address) (scope : Scope) (options : HistoryOptions) :
    AsksNoMore source monitor program network scope options
      (replay source monitor program network scope options) := by
  have hfetched := fetched_replay_sublist source monitor program network scope options
  constructor
  case eq_empty => exact fun hlimit => replay_of_limit_eq_zero hlimit source program network
  case fetched_eq =>
    intro hlimit
    obtain ⟨k, duration, hreplay, hbelow, henough⟩ := exists_looked source program network hlimit
    refine ⟨k, needed_of_below hbelow henough, ?_, hbelow⟩
    rw [hreplay]
    rfl
  case fetched_length_le =>
    have hle := hfetched.length_le
    rw [List.length_map] at hle
    exact Nat.le_trans hle (length_chosen_le _ _ _ _ _ _)
  case fetched_nodup => exact fun hdistinct => hdistinct.sublist hfetched
  case lookups_eq =>
    exact fun hlimit => (lookups_replay source program network hlimit).trans (lookUp_snd _ _ _ _)
  case lookups_length_le =>
    rcases lookups_cases source monitor program network scope options with hone | ⟨htwo, -⟩
    · exact Nat.le_succ_of_le hone
    · exact Nat.le_of_eq htwo
  case of_two_lookups =>
    intro htwo
    rcases lookups_cases source monitor program network scope options with
      hone | ⟨-, hsession, hnone⟩
    · rw [htwo] at hone
      exact absurd hone (by decide)
    · refine ⟨hsession, ?_⟩
      cases hfirst : source.signatures (addresses program network scope).1
          monitor.maxSignatures.toNat options.before with
      | none => exact Or.inl rfl
      | some entries =>
        rw [hfirst] at hnone
        exact Or.inr (congrArg some hnone)
  case eq_of_answersAlike => exact fun source' h => replay_congr h

/-! ## A history that stops before the last batch -/

/-- A source that lists five transactions, of which the second failed and only the third can be
fetched. -/
def fiveListed : TransactionSource where
  signatures _ _ _ := some [⟨.replicate 64 1, false⟩, ⟨.replicate 64 2, true⟩,
    ⟨.replicate 64 3, false⟩, ⟨.replicate 64 4, false⟩, ⟨.replicate 64 5, false⟩]
  transaction? signature :=
    if signature = .replicate 64 3 then some (claimOf 0 signature (some 9)) else none
  delay _ := 3
  clock _ := 5

/-- For one event, the first batch of two is not enough, and the second one is fetched whole. -/
theorem asksNoMore_fiveListed :
    (replay fiveListed { fetchBatchSize := 2 } (.replicate 32 1) (.replicate 32 2) .program
      { limit := some 1 }).fetched = [.replicate 64 1, .replicate 64 3, .replicate 64 4] := by
  obtain ⟨k, hneeded, hfetched, -⟩ := (asksNoMore_replay fiveListed { fetchBatchSize := 2 }
    (.replicate 32 1) (.replicate 32 2) .program { limit := some 1 }).fetched_eq (by decide)
  have hone : (found fiveListed { fetchBatchSize := 2 } (.replicate 32 1) (.replicate 32 2) .program
      { limit := some 1 } 1).length = 0 := by decide +kernel
  have htwo : (found fiveListed { fetchBatchSize := 2 } (.replicate 32 1) (.replicate 32 2) .program
      { limit := some 1 } 2).length = 1 := by decide +kernel
  obtain rfl : k = 2 := by
    rcases hneeded with hleast | ⟨hbelow, -⟩
    · refine hleast.unique ⟨Nat.le_of_eq htwo.symm, fun j hj => ?_⟩
      by_contra hlt
      obtain rfl | rfl : j = 0 ∨ j = 1 := by omega
      · exact absurd hj (by decide)
      · exact absurd (Nat.le_trans hj (Nat.le_of_eq hone)) (by decide)
    · exact absurd htwo (Nat.ne_of_lt (hbelow 2))
  exact hfetched

end ComputeNet.History
