import Mathlib.Algebra.BigOperators.Group.List.Basic
import ComputeNet.Proofs.History.Plain
import ComputeNet.Proofs.World.Stored

/-!
# Paging through the past

Call after call for the past events of the program returns page after page, when each call goes on
before the transaction of the last event that came (`Pages`). A limit counts events, but a call goes
on before whole transactions. So what a page leaves of the transaction that it ends within comes on
no later page, and everything else comes once and in order (`exists_leaves_pages`).
-/

namespace ComputeNet

namespace Ledger

private theorem after_suffix (cursor : Signature) (entries : List SignatureEntry) :
    after cursor entries <:+ entries := by
  induction entries with
  | nil => exact List.suffix_refl []
  | cons e entries ih =>
    rw [after]
    split
    · exact List.suffix_cons e entries
    · exact ih.trans (List.suffix_cons e entries)

/-- What is older than a transaction are the entries after it. -/
private theorem after_append {front rest : List SignatureEntry} {e : SignatureEntry}
    (h : e.signature ∉ front.map (·.signature)) :
    after e.signature (front ++ e :: rest) = rest := by
  induction front with
  | nil => rw [List.nil_append, after, if_pos rfl]
  | cons d front ih =>
    obtain ⟨hne, hfront⟩ := not_or.mp (List.mem_cons.not.mp h)
    rw [List.cons_append, after, if_neg (Ne.symm hne), ih hfront]

theorem signaturesBefore_suffix (l : Ledger) (address : Address) (before : Option Signature) :
    l.signaturesBefore address before <:+ l.signatures address := by
  cases before with
  | none => exact List.suffix_refl _
  | some cursor => exact after_suffix cursor _

end Ledger

/-- What is taken of several blocks is some whole blocks and the front of one more. -/
private theorem exists_of_take_flatMap {α β : Type} {block : α → List β} {items : List α} {n : Nat}
    {ys : List β} {x : β} (h : (items.flatMap block).take n = ys ++ [x]) :
    ∃ front a rest shown cut, items = front ++ a :: rest ∧ block a = shown ++ cut ∧
      ys ++ [x] = front.flatMap block ++ shown ∧ x ∈ shown ∧
      (cut ≠ [] → (ys ++ [x]).length = n) := by
  induction items generalizing n ys with
  | nil => simp at h
  | cons a items ih =>
    rw [List.flatMap_cons, List.take_append] at h
    rcases List.eq_nil_or_concat ((items.flatMap block).take (n - (block a).length)) with
      hnil | ⟨ys', x', hlast⟩
    · rw [hnil, List.append_nil] at h
      refine ⟨[], a, items, (block a).take n, (block a).drop n, rfl,
        (List.take_append_drop n _).symm, h.symm, h ▸ List.mem_concat_self, fun hcut => ?_⟩
      rw [← h, List.length_take]
      have hlt : n < (block a).length := by simpa using hcut
      omega
    · rw [List.concat_eq_append] at hlast
      have hroom : 0 < n - (block a).length := by
        by_contra hle
        rw [Nat.eq_zero_of_not_pos hle, List.take_zero] at hlast
        exact absurd hlast (by simp)
      have htake : (block a).take n = block a := List.take_of_length_le (by omega)
      rw [htake, hlast, ← List.append_assoc] at h
      obtain ⟨rfl, hx⟩ := List.append_inj' h rfl
      cases hx
      obtain ⟨front, b, rest, shown, cut, rfl, hblock, hshown, hx', hcut⟩ := ih hlast
      refine ⟨a :: front, b, rest, shown, cut, rfl, hblock, ?_, hx', fun hne => ?_⟩
      · rw [List.flatMap_cons, List.append_assoc, List.append_assoc, hshown]
      · have hlength := hcut hne
        rw [List.append_assoc, List.length_append, hlength]
        omega

/-- A page, and what its limit cut off: the rest of the transaction that the page ends within. -/
structure Leaf where
  page : List PastEvent
  cut : List PastEvent

/-- The page ends with events of one of the transactions, of which the rest was cut off. Nothing was
cut off unless the page is full. -/
def Leaf.CutWithin (l : Leaf) (limit : Nat) (events : SignatureEntry → List PastEvent)
    (entries : List SignatureEntry) : Prop :=
  ∃ e ∈ entries, ∃ shown, shown ≠ [] ∧ events e = shown ++ l.cut ∧ shown <:+ l.page ∧
    (l.cut ≠ [] → l.page.length = limit)

private theorem Leaf.flatten_pages_eq_iff (leaves : List Leaf) :
    (leaves.map (·.page)).flatten = leaves.flatMap (fun l => l.page ++ l.cut) ↔
      ∀ l ∈ leaves, l.cut = [] := by
  rw [← List.flatMap_def]
  constructor
  · intro h
    have hlength : (leaves.flatMap fun l => l.page ++ l.cut).length =
        (leaves.flatMap (·.page)).length + (leaves.flatMap (·.cut)).length := by
      simp only [List.length_flatMap, List.length_append, List.sum_map_add]
    rw [← h, Nat.left_eq_add, List.length_eq_zero_iff, List.flatMap_eq_nil_iff] at hlength
    exact hlength
  · intro h
    refine List.flatMap_congr fun l hl => ?_
    rw [h l hl, List.append_nil]

namespace World

open History (blockTime?)

/-- The transactions of the program, newest first. -/
abbrev programEntries (w : World) : List SignatureEntry :=
  w.endpoint.ledger.signatures w.client.program

/-- The events of a transaction that the past of the program shows. -/
abbrev programEvents (w : World) : SignatureEntry → List PastEvent :=
  History.entryEvents (source w.endpoint) .program none

/-- All past events of the program, in the order of the transactions. -/
def past (w : World) : List PastEvent := w.programEntries.flatMap w.programEvents

/-- The transactions of the program can be listed as a whole, have signatures of their own and times
that fall along the list. -/
structure Indexed (w : World) : Prop where
  listed : w.client.program ∉ w.endpoint.failingAddresses
  covered : w.programEntries.length ≤ w.client.monitor.maxSignatures.toNat
  distinct : (w.programEntries.map (·.signature)).Nodup
  timed : ∀ e ∈ w.programEntries, ∃ seconds, blockTime? (source w.endpoint) e = some seconds
  falling : w.programEntries.Pairwise fun d e => ∀ earlier later,
    blockTime? (source w.endpoint) e = some earlier →
    blockTime? (source w.endpoint) d = some later → earlier < later

/-- The calendar can write the times of all transactions of the program. -/
def TimesWritten (w : World) : Prop :=
  ∀ e ∈ w.programEntries, ∀ seconds, blockTime? (source w.endpoint) e = some seconds →
    Stamp.earliest ≤ seconds ∧ seconds ≤ Stamp.latest

/-- The pages that calls for the past events of the program return, one after the other: each call
goes on before the transaction of the last event that came, until nothing comes. -/
inductive Pages (task : Option UInt64) (limit : UInt64) :
    World → Option Signature → List (List PastEvent) → Prop
  | last {w : World} {before : Option Signature}
      (h : (w.history .program { task, limit := some limit, before }).1 = []) :
      Pages task limit w before []
  | next {w : World} {before : Option Signature} {page : List PastEvent} {x : PastEvent}
      {pages : List (List PastEvent)}
      (h : (w.history .program { task, limit := some limit, before }).1 = page ++ [x])
      (hrest : Pages task limit (w.history .program { task, limit := some limit, before }).2
        (some x.signature) pages) :
      Pages task limit w before ((page ++ [x]) :: pages)

variable {w : World} {task : Option UInt64} {limit : UInt64}

/-- There is only one way for the pages to come. -/
theorem Pages.unique {before : Option Signature} {pages pages' : List (List PastEvent)}
    (h : w.Pages task limit before pages) (h' : w.Pages task limit before pages') :
    pages = pages' := by
  induction h generalizing pages' with
  | last hlast =>
    cases h' with
    | last => rfl
    | next hnext => exact absurd (hlast.symm.trans hnext) (by simp)
  | next hnext _ ih =>
    cases h' with
    | last hlast => exact absurd (hlast.symm.trans hnext) (by simp)
    | next hnext' hrest' =>
      obtain ⟨rfl, hx⟩ := List.append_inj' (hnext.symm.trans hnext') rfl
      cases hx
      rw [ih hrest']

/-- A look at the past leaves the client, and all of the endpoint but its counter of fetches. -/
theorem history_frame (w : World) (scope : Scope) (options : HistoryOptions) :
    (w.history scope options).2.client = w.client ∧
      ∃ fetches, (w.history scope options).2.endpoint = { w.endpoint with fetches } := by
  obtain ⟨hendpoint, hclient, -, -⟩ := runUntil_frame (w.now + (w.client.history
    (source w.endpoint) scope options).duration) { w with endpoint := { w.endpoint with
      fetches := w.endpoint.fetches +
        (w.client.history (source w.endpoint) scope options).fetched.length } }
  exact ⟨hclient, _, hendpoint⟩

/-- What a look at the past finds does not depend on looks before it. -/
theorem source_history (w : World) (scope : Scope) (options : HistoryOptions) :
    source (w.history scope options).2.endpoint = source w.endpoint := by
  obtain ⟨-, fetches, hendpoint⟩ := w.history_frame scope options
  rw [hendpoint]
  rfl

theorem ledger_history (w : World) (scope : Scope) (options : HistoryOptions) :
    (w.history scope options).2.endpoint.ledger = w.endpoint.ledger := by
  obtain ⟨-, fetches, hendpoint⟩ := w.history_frame scope options
  rw [hendpoint]

theorem Indexed.history (h : w.Indexed) (scope : Scope) (options : HistoryOptions) :
    (w.history scope options).2.Indexed := by
  obtain ⟨hclient, fetches, hendpoint⟩ := w.history_frame scope options
  obtain ⟨listed, covered, distinct, timed, falling⟩ := h
  constructor <;> simp only [programEntries, hclient, hendpoint]
  all_goals assumption

theorem TimesWritten.history (h : w.TimesWritten) (scope : Scope) (options : HistoryOptions) :
    (w.history scope options).2.TimesWritten := by
  simp only [TimesWritten, programEntries, source_history, (w.history_frame scope options).1,
    ledger_history]
  exact h

theorem Indexed.dated (h : w.Indexed) (hwritten : w.TimesWritten) :
    History.Dated (source w.endpoint) w.programEntries := by
  constructor
  · intro e he _
    obtain ⟨seconds, hseconds⟩ := h.timed e he
    exact ⟨seconds, hseconds, hwritten e he seconds hseconds⟩
  · exact h.falling.imp fun hlt earlier later hearlier hlater =>
      Int.le_of_lt (hlt earlier later hearlier hlater)

/-- A history of the program looks at all transactions before its cursor. -/
theorem Indexed.chosen_eq (h : w.Indexed) (before : Option Signature) :
    History.chosen (source w.endpoint) w.client.monitor w.client.program w.client.network .program
      before = w.endpoint.ledger.signaturesBefore w.client.program before := by
  obtain ⟨most, hmost⟩ : ∃ most, most = w.client.monitor.maxSignatures.toNat := ⟨_, rfl⟩
  have hle : (w.endpoint.ledger.signaturesBefore w.client.program before).length ≤ most :=
    Nat.le_trans (w.endpoint.ledger.signaturesBefore_suffix _ before).length_le (hmost ▸ h.covered)
  have hlisted := Endpoint.signatures_eq_some h.listed hle
  rw [History.chosen, ← hmost]
  simp only [History.addresses, source, hlisted, Option.getD_some, Option.bind_none,
    Option.getD_none]
  split
  next hnil => rw [hnil, List.take_nil]
  next => exact List.take_of_length_le hle

/-- A call for the past of the program returns a front of the events before its cursor. -/
theorem Indexed.history_fst (h : w.Indexed) (hwritten : w.TimesWritten) (task : Option UInt64)
    (limit : UInt64) (before : Option Signature) :
    (w.history .program { task, limit := some limit, before }).1 =
      ((w.endpoint.ledger.signaturesBefore w.client.program before).flatMap
        w.programEvents).take limit.toNat := by
  have hdated := (h.dated hwritten).sublist
    (w.endpoint.ledger.signaturesBefore_suffix w.client.program before).sublist
  rw [← h.chosen_eq before] at hdated ⊢
  exact History.events_replay_of_dated _ _ _ _ _ { task := none, limit := some limit, before }
    hdated

/-- The pages that come from some cursor on make up what is before it, each followed by what it cut
off. -/
theorem Indexed.exists_leaves (h : w.Indexed) (hwritten : w.TimesWritten) (task : Option UInt64)
    (hlimit : 0 < limit) (before : Option Signature) {items : List SignatureEntry}
    (hitems : w.endpoint.ledger.signaturesBefore w.client.program before = items) :
    ∃ leaves : List Leaf, w.Pages task limit before (leaves.map (·.page)) ∧
      items.flatMap w.programEvents = leaves.flatMap (fun l => l.page ++ l.cut) ∧
      ∀ l ∈ leaves, l.CutWithin limit.toNat w.programEvents items := by
  -- Each page takes at least one transaction off the front of what is left.
  induction hlength : items.length using Nat.strongRecOn generalizing w before items with
  | ind n ih =>
    have hpage := h.history_fst hwritten task limit before
    rw [hitems] at hpage
    rcases List.eq_nil_or_concat ((items.flatMap w.programEvents).take limit.toNat) with
      hnil | ⟨ys, x, hlast⟩
    · refine ⟨[], .last (hpage.trans hnil), ?_, by simp⟩
      rcases List.take_eq_nil_iff.mp hnil with hzero | hnone
      · exact absurd hzero (Nat.ne_of_gt hlimit)
      · exact hnone
    · rw [List.concat_eq_append] at hlast
      obtain ⟨front, e, rest, shown, cut, rfl, hblock, hshown, hx, hcut⟩ :=
        exists_of_take_flatMap hlast
      have hsignature : x.signature = e.signature :=
        History.signature_of_mem (hblock ▸ List.mem_append_left cut hx)
      -- The next call goes on before the transaction of the last event.
      obtain ⟨newer, hnewer⟩ := w.endpoint.ledger.signaturesBefore_suffix w.client.program before
      rw [hitems, ← List.append_assoc] at hnewer
      have hnot : e.signature ∉ (newer ++ front).map (·.signature) := by
        have hdistinct := h.distinct
        rw [programEntries, ← hnewer, List.map_append, List.map_cons, List.nodup_middle,
          List.nodup_cons] at hdistinct
        exact fun hmem => hdistinct.1 (List.mem_append_left _ hmem)
      have hrest : w.endpoint.ledger.signaturesBefore w.client.program (some x.signature) =
          rest := by
        rw [Ledger.signaturesBefore, hsignature, ← hnewer, Ledger.after_append hnot]
      obtain ⟨options, hoptions⟩ : ∃ options : HistoryOptions,
          options = { task, limit := some limit, before } := ⟨_, rfl⟩
      obtain ⟨hclient, -⟩ := w.history_frame .program options
      have hevents : (w.history .program options).2.programEvents = w.programEvents := by
        rw [programEvents, source_history]
      have hlt : rest.length < n := by
        rw [← hlength, List.length_append, List.length_cons]
        omega
      obtain ⟨leaves, hpages, hleaves, hcuts⟩ := ih rest.length hlt
        (h.history .program options) (hwritten.history .program options) (some x.signature)
        (by rw [ledger_history, hclient]; exact hrest) rfl
      rw [hevents] at hleaves hcuts
      subst hoptions
      refine ⟨⟨ys ++ [x], cut⟩ :: leaves, .next (hpage.trans hlast) hpages, ?_, ?_⟩
      · rw [List.flatMap_append, List.flatMap_cons, List.flatMap_cons, hleaves, hblock, hshown]
        simp only [List.append_assoc]
      · intro l hl
        rcases List.mem_cons.mp hl with rfl | hl
        · refine ⟨e, by simp, shown, List.ne_nil_of_mem hx, hblock, ?_, hcut⟩
          rw [hshown]
          exact List.suffix_append _ _
        · obtain ⟨d, hd, hwithin⟩ := hcuts l hl
          exact ⟨d, List.mem_append_right _ (List.mem_cons_of_mem e hd), hwithin⟩

/-- Paging comes to an end, and with what was cut off between them the pages are the past of the
program, in order. So they are the whole past just if nothing was cut off, as where no transaction
has more than one event. -/
theorem exists_leaves_pages (w : World) (task : Option UInt64) {limit : UInt64}
    (hlimit : 0 < limit) (h : w.Indexed) (hwritten : w.TimesWritten) :
    (∀ most : UInt64, w.past.length ≤ most.toNat →
      (w.history .program { task, limit := some most }).1 = w.past) ∧
    ∃ leaves : List Leaf,
      (∀ pages, w.Pages task limit none pages ↔ pages = leaves.map (·.page)) ∧
      w.past = leaves.flatMap (fun l => l.page ++ l.cut) ∧
      (∀ l ∈ leaves, l.CutWithin limit.toNat w.programEvents w.programEntries) ∧
      ((leaves.map (·.page)).flatten = w.past ↔ ∀ l ∈ leaves, l.cut = []) ∧
      ((∀ e ∈ w.programEntries, (w.programEvents e).length ≤ 1) →
        (leaves.map (·.page)).flatten = w.past) := by
  constructor
  · intro most hmost
    rw [h.history_fst hwritten]
    exact List.take_of_length_le hmost
  obtain ⟨leaves, hpages, hpast, hcuts⟩ := h.exists_leaves hwritten task hlimit none rfl
  have hwhole : (leaves.map (·.page)).flatten = w.past ↔ ∀ l ∈ leaves, l.cut = [] := by
    rw [past, ← Leaf.flatten_pages_eq_iff, ← hpast]
    rfl
  refine ⟨leaves, fun pages => ⟨fun h' => h'.unique hpages, fun heq => heq ▸ hpages⟩, hpast, hcuts,
    hwhole, fun hsingle => hwhole.mpr fun l hl => ?_⟩
  obtain ⟨e, he, shown, hshown, hevents, -⟩ := hcuts l hl
  have hlength := hsingle e he
  rw [hevents, List.length_append] at hlength
  have hpos := List.length_pos_iff.mpr hshown
  exact List.length_eq_zero_iff.mp (by omega)

end World

/-! ## What pages lose -/

private theorem newestBy_pair {α : Type} {time : α → Int} {a b : α} (h : time a < time b) :
    newestBy time [a, b] = [b, a] := by
  have hnot : ¬ time b ≤ time a := Int.not_le.mpr h
  simp [newestBy, List.mergeSort, hnot]

namespace History

/-- A history that fetches all transactions at once shows the newest of all their events. -/
theorem events_replay_of_length_le (source : TransactionSource) (monitor : MonitorSettings)
    (program network : Address) (scope : Scope) (options : HistoryOptions)
    (h : (chosen source monitor program network scope options.before).length ≤
      monitor.fetchBatchSize.toNat) :
    (replay source monitor program network scope options).events =
      ((newestBy (entryTime source)
        (chosen source monitor program network scope options.before)).flatMap
          (entryEvents source scope options.task)).take (limitOf monitor scope options) := by
  by_cases hlimit : limitOf monitor scope options = 0
  · rw [replay_of_limit_eq_zero hlimit, hlimit, List.take_zero]
    rfl
  obtain ⟨k, duration, hreplay, -, henough⟩ := exists_looked source program network hlimit
  have hlooked : looked source monitor program network scope options k =
      chosen source monitor program network scope options.before := by
    rcases henough with rfl | hle
    · exact looked_of_batchCount_le (Nat.le_refl _)
    · cases k with
      | zero =>
        rw [found, looked, Nat.zero_mul, List.take_zero] at hle
        exact absurd (Nat.le_zero.mp hle) hlimit
      | succ k =>
        rw [looked, List.take_of_length_le]
        rw [Nat.succ_mul]
        omega
  rw [hreplay, found, hlooked, ← newestBy_flatMap time_of_mem]
  rfl

end History

/-- A world in which the program has some transactions, newest first. -/
def World.recording (records : List TransactionRecord) : World where
  client := { program := .replicate 32 100, network := .replicate 32 101 }
  endpoint := { ledger := { Ledger.empty with
    history := records.map fun r => ⟨[.replicate 32 100], r⟩ } }

/-- A node takes on two tasks in one transaction. -/
def World.twoAtOnce : World :=
  recording [{ History.claimOf 1 (.replicate 64 1) (some 9) with
    logs := some [Log.line (.taskClaimed ⟨1, 1, .replicate 32 1, 5⟩),
      Log.line (.taskClaimed ⟨1, 2, .replicate 32 1, 5⟩)] }]

/-- The latest second of the calendar has a claim, and so has the second after it. -/
def World.endOfTime : World :=
  recording [History.claimOf 2 (.replicate 64 2) (some (Stamp.latest + 1)),
    History.claimOf 1 (.replicate 64 1) (some Stamp.latest)]

/-- A node takes on a task of session 1. -/
def PastEvent.claimed (task : UInt64) (signature : Signature) (time : Stamp) : PastEvent :=
  ⟨⟨.taskClaimed ⟨1, task, .replicate 32 1, 5⟩, signature⟩, time⟩

namespace World

open PastEvent (claimed)

private theorem programEntries_twoAtOnce :
    twoAtOnce.programEntries = [⟨.replicate 64 1, false⟩] := rfl

theorem indexed_twoAtOnce : twoAtOnce.Indexed where
  listed := List.not_mem_nil
  covered := by decide
  distinct := List.nodup_singleton _
  timed := by
    intro e he
    rw [List.mem_singleton.mp he]
    exact ⟨9, rfl⟩
  falling := List.pairwise_singleton _ _

theorem timesWritten_twoAtOnce : twoAtOnce.TimesWritten := by
  intro e he seconds hseconds
  rw [List.mem_singleton.mp he] at hseconds
  cases hseconds
  decide

set_option maxRecDepth 10000 in
private theorem programEvents_twoAtOnce : twoAtOnce.programEvents ⟨.replicate 64 1, false⟩ =
    [claimed 1 (.replicate 64 1) ⟨9000000000, false⟩,
      claimed 2 (.replicate 64 1) ⟨9000000000, false⟩] := by
  decide +kernel

theorem programEntries_endOfTime :
    endOfTime.programEntries = [⟨.replicate 64 2, false⟩, ⟨.replicate 64 1, false⟩] := rfl

theorem indexed_endOfTime : endOfTime.Indexed where
  listed := List.not_mem_nil
  covered := by decide
  distinct := by decide
  timed := by
    intro e he
    rcases List.mem_pair.mp he with rfl | rfl
    · exact ⟨Stamp.latest + 1, rfl⟩
    · exact ⟨Stamp.latest, rfl⟩
  falling := by
    refine List.pairwise_pair.mpr ?_
    rintro earlier later ⟨⟩ ⟨⟩
    decide

set_option maxRecDepth 10000 in
theorem programEvents_endOfTime :
    endOfTime.programEvents ⟨.replicate 64 2, false⟩ =
        [claimed 2 (.replicate 64 2) ⟨present, true⟩] ∧
      endOfTime.programEvents ⟨.replicate 64 1, false⟩ =
        [claimed 1 (.replicate 64 1) ⟨Stamp.latest * 1000000000, false⟩] := by
  decide +kernel

theorem history_twoAtOnce (limit : UInt64) :
    (twoAtOnce.history .program { limit := some limit }).1 =
      [claimed 1 (.replicate 64 1) ⟨9000000000, false⟩,
        claimed 2 (.replicate 64 1) ⟨9000000000, false⟩].take limit.toNat := by
  rw [indexed_twoAtOnce.history_fst timesWritten_twoAtOnce none limit none]
  change (twoAtOnce.programEntries.flatMap twoAtOnce.programEvents).take limit.toNat = _
  rw [programEntries_twoAtOnce, List.flatMap_singleton, programEvents_twoAtOnce]

/-- The claim whose time cannot be written counts as one of the present, so that it comes last. -/
theorem history_endOfTime (limit : UInt64) :
    (endOfTime.history .program { limit := some limit }).1 =
      [claimed 1 (.replicate 64 1) ⟨Stamp.latest * 1000000000, false⟩,
        claimed 2 (.replicate 64 2) ⟨present, true⟩].take limit.toNat := by
  have hlate : History.entryTime (source endOfTime.endpoint) ⟨.replicate 64 2, false⟩ =
      present := rfl
  have hlatest : History.entryTime (source endOfTime.endpoint) ⟨.replicate 64 1, false⟩ =
      Stamp.latest * 1000000000 := rfl
  have hchosen := indexed_endOfTime.chosen_eq none
  have hsorted : newestBy (History.entryTime (source endOfTime.endpoint)) endOfTime.programEntries =
      [⟨.replicate 64 1, false⟩, ⟨.replicate 64 2, false⟩] := by
    rw [programEntries_endOfTime]
    apply newestBy_pair
    rw [hlate, hlatest]
    decide
  have hall := History.events_replay_of_length_le (source endOfTime.endpoint)
    endOfTime.client.monitor endOfTime.client.program endOfTime.client.network .program
    { limit := some limit } (by rw [hchosen]; decide)
  rw [hchosen, Ledger.signaturesBefore, hsorted] at hall
  refine hall.trans ?_
  obtain ⟨hsecond, hfirst⟩ := programEvents_endOfTime
  simp only [List.flatMap_cons, List.flatMap_nil, hfirst, hsecond]
  rfl

/-- Where nothing is older than the cursor, nothing comes. -/
theorem Indexed.history_fst_eq_nil {w : World} (h : w.Indexed) {task : Option UInt64}
    {limit : UInt64} {before : Option Signature}
    (hnone : w.endpoint.ledger.signaturesBefore w.client.program before = []) :
    (w.history .program { task, limit := some limit, before }).1 = [] := by
  have hchosen := (h.chosen_eq before).trans hnone
  have hall := History.events_replay_of_length_le (source w.endpoint) w.client.monitor
    w.client.program w.client.network .program { limit := some limit, before }
    (by rw [hchosen]; exact Nat.zero_le _)
  rw [hchosen, newestBy_eq_self List.Pairwise.nil, List.flatMap_nil, List.take_nil] at hall
  exact hall

/-- The second of two events in one transaction comes on no page of one event. Nor does an event
come whose transaction has a time that the calendar cannot write, after one that is older. -/
theorem pages_ne_past :
    (twoAtOnce.Indexed ∧ twoAtOnce.TimesWritten ∧ ∃ pages, twoAtOnce.Pages none 1 none pages ∧
      pages.flatten ≠ (twoAtOnce.history .program { limit := some 1000 }).1) ∧
    (endOfTime.Indexed ∧
      (∀ e ∈ endOfTime.programEntries, (endOfTime.programEvents e).length ≤ 1) ∧
      ∃ pages, endOfTime.Pages none 1 none pages ∧
        pages.flatten ≠ (endOfTime.history .program { limit := some 1000 }).1) := by
  constructor
  · refine ⟨indexed_twoAtOnce, timesWritten_twoAtOnce,
      [[claimed 1 (.replicate 64 1) ⟨9000000000, false⟩]], ?_, ?_⟩
    · have hpage : (twoAtOnce.history .program { limit := some 1 }).1 =
          [] ++ [claimed 1 (.replicate 64 1) ⟨9000000000, false⟩] := history_twoAtOnce 1
      refine .next hpage (.last ?_)
      apply (indexed_twoAtOnce.history _ _).history_fst_eq_nil
      rw [ledger_history, (twoAtOnce.history_frame _ _).1]
      decide
    · rw [history_twoAtOnce]
      decide
  · refine ⟨indexed_endOfTime, ?_,
      [[claimed 1 (.replicate 64 1) ⟨Stamp.latest * 1000000000, false⟩]], ?_, ?_⟩
    · intro e he
      rw [programEntries_endOfTime] at he
      rcases List.mem_pair.mp he with rfl | rfl
      · rw [programEvents_endOfTime.1]
        exact Nat.le_refl 1
      · rw [programEvents_endOfTime.2]
        exact Nat.le_refl 1
    · have hpage : (endOfTime.history .program { limit := some 1 }).1 =
          [] ++ [claimed 1 (.replicate 64 1) ⟨Stamp.latest * 1000000000, false⟩] :=
        history_endOfTime 1
      refine .next hpage (.last ?_)
      apply (indexed_endOfTime.history _ _).history_fst_eq_nil
      rw [ledger_history, (endOfTime.history_frame _ _).1]
      decide
    · rw [history_endOfTime]
      decide

/-- The one page of one event that comes, with what it cuts off. -/
theorem exists_leaves_pages_twoAtOnce :
    (0 : UInt64) < 1 ∧ twoAtOnce.Indexed ∧ twoAtOnce.TimesWritten ∧ ∃ leaves : List Leaf,
      (∀ pages, twoAtOnce.Pages none 1 none pages ↔ pages = leaves.map (·.page)) ∧
      twoAtOnce.past = leaves.flatMap (fun l => l.page ++ l.cut) := by
  have hlimit : (0 : UInt64) < 1 := by decide
  obtain ⟨-, leaves, hpages, hpast, -⟩ := exists_leaves_pages twoAtOnce none hlimit
    indexed_twoAtOnce timesWritten_twoAtOnce
  exact ⟨hlimit, indexed_twoAtOnce, timesWritten_twoAtOnce, leaves, hpages, hpast⟩

end World

end ComputeNet
