import ComputeNet.Proofs.World.Told

/-!
# What a wait answers

A wait that ends well answers with what was seen of its targets, no more and no less: each record
was read from an account that stood in the ledger while the wait went on, and the records are the
latest ones up to the first moment at which they were enough.
-/

namespace ComputeNet

/-- What a wait may answer with after a listing and the changes that it has looked at since. -/
structure WaitRequest.AnswersWith {α σ : Type} [DecidableEq σ] (r : WaitRequest α σ)
    (listed seen : List (Address × Bytes)) (found : Found α) : Prop where
  /-- There is one record for each key, the latest that was seen. -/
  nodup : (found.map Prod.fst).Nodup
  mem_iff : ∀ key a, (key, a) ∈ found ↔ latest (r.sightings (listed ++ seen)) key = some a
  /-- A wait for all targets has seen each of them, and some target not before the last change. -/
  all : r.mode = .all → (∀ key, key ∈ found.map Prod.fst ↔ key ∈ r.targets) ∧
    ∀ earlier, earlier <+: seen → earlier ≠ seen →
      ∃ key ∈ r.targets, ∀ a, (key, a) ∉ r.sightings (listed ++ earlier)
  /-- A wait for any target that the listing shows answers with all that it shows. -/
  first_listed : r.mode = .first → r.sightings listed ≠ [] → seen = [] ∧
    ∀ key, key ∈ found.map Prod.fst ↔ ∃ a, (key, a) ∈ r.sightings listed
  /-- A wait for any target otherwise answers with the target in the first change that shows one. -/
  first_seen : r.mode = .first → r.sightings listed = [] → ∃ before c p,
    seen = before ++ [c] ∧ r.sightings before = [] ∧ r.sight c = some p ∧ found = [p]

namespace WaitRequest

variable {α σ : Type} [DecidableEq σ] (r : WaitRequest α σ)

theorem mem_keys_foundIn_iff {changes : List (Address × Bytes)} {key : EntityKey} :
    key ∈ (r.foundIn changes).map Prod.fst ↔ ∃ a, (key, a) ∈ r.sightings changes := by
  rw [← latest_isSome_iff, Option.isSome_iff_exists, List.mem_map]
  constructor
  · rintro ⟨p, hp, rfl⟩
    exact ⟨p.2, r.mem_foundIn_iff.mp hp⟩
  · rintro ⟨a, ha⟩
    exact ⟨(key, a), r.mem_foundIn_iff.mpr ha, rfl⟩

/-- What is found with the change that makes it enough is what a wait may answer with. -/
theorem CompletesWith.answersWith {listed seen : List (Address × Bytes)}
    (h : r.CompletesWith listed seen) :
    r.AnswersWith listed seen (r.foundIn (listed ++ seen)) := by
  obtain ⟨henough, hbefore⟩ := h
  rw [isComplete_foundIn_iff, Enough] at henough
  have hmore : ∀ earlier, earlier <+: seen → earlier ≠ seen →
      ¬ r.Enough (r.sightings (listed ++ earlier)) := by
    intro earlier hearlier hne
    rw [← isComplete_foundIn_iff, hbefore earlier hearlier hne]
    exact Bool.false_ne_true
  refine ⟨r.nodup_keys_foundIn _, fun key a => r.mem_foundIn_iff, ?_, ?_, ?_⟩
  · intro hmode
    rw [hmode] at henough
    simp only [Enough, hmode] at hmore
    constructor
    · intro key
      rw [mem_keys_foundIn_iff]
      constructor
      · rintro ⟨a, ha⟩
        exact (r.mem_sightings_iff.mp ha).1
      · exact henough key
    · intro earlier hearlier hne
      have hnot := hmore earlier hearlier hne
      push Not at hnot
      exact hnot
  · intro hmode hlisted
    simp only [Enough, hmode] at hmore
    have hseen : seen = [] := by
      by_contra hne
      apply hmore [] (List.nil_prefix) (Ne.symm hne)
      rwa [List.append_nil]
    subst hseen
    refine ⟨rfl, ?_⟩
    intro key
    rw [mem_keys_foundIn_iff, List.append_nil]
  · intro hmode hlisted
    rw [hmode] at henough
    simp only [Enough, hmode] at hmore
    rcases List.eq_nil_or_concat seen with rfl | ⟨before, c, hseen⟩
    · rw [List.append_nil] at henough
      exact absurd hlisted henough
    · rw [List.concat_eq_append] at hseen
      subst hseen
      -- Before the last change nothing was seen, so that it is the first that shows a target.
      have hnone : r.sightings (listed ++ before) = [] := by
        by_contra hne
        exact hmore before (List.prefix_append before [c]) (by simp) hne
      rw [← List.append_assoc, sightings_append, hnone, List.nil_append] at henough
      cases hsight : r.sight c with
      | none => exact absurd (by simp [sightings, hsight]) henough
      | some p =>
        rw [sightings_append] at hnone
        refine ⟨before, c, p, rfl, (List.append_eq_nil_iff.mp hnone).2, hsight, ?_⟩
        rw [← List.append_assoc, foundIn_append_singleton, look_eq, hsight]
        rw [r.foundIn_eq_nil_iff.mpr (by rw [sightings_append]; exact hnone)]
        rfl

end WaitRequest

namespace World

/-- The account stands in the ledger at some moment of a play at which the `n`-th wait had not been
over before. -/
def StandsDuring (w : World) (n : Nat) (moves : List Move) (a : RawAccount) : Prop :=
  ∃ k ≤ moves.length, (∀ i < k, (w.play (moves.take i)).stage? n ≠ some .finished) ∧
    a ∈ (w.play (moves.take k)).endpoint.ledger.accounts

/-- What the listing of a wait shows stands in the ledger while the wait goes on. -/
private theorem ListsWith.standsDuring {w : World} {n j : Nat} {filters : List Filter}
    {moves : List Move}
    {accounts : List RawAccount} (h : w.ListsWith n filters moves j accounts) {a : RawAccount}
    (ha : a ∈ accounts) : w.StandsDuring n moves a := by
  refine ⟨j, h.le_length, ?_, ((Endpoint.mem_listing_iff h.listing).mp ha).1⟩
  intro i hi
  rw [h.before i hi]
  decide

variable {kind : EntityKind} {w : World} {n : Nat} {request : WaitRequest kind.Record kind.Status}
  {moves : List Move}

/-- What the stream of a wait shows is stored while the wait goes on. -/
private theorem Begins.standsDuring_of_mem_arrivals (h : w.Begins n request) {c : Address × Bytes}
    (hc : c ∈ w.arrivals n moves) : ∃ a, c = a.change ∧ w.StandsDuring n moves a := by
  obtain ⟨before, a, after, rfl, rfl, e, he, hhears⟩ := exists_of_mem_arrivals hc
  obtain ⟨wait, listed, hwait, -, hinformed, -⟩ := h.informed_play before
  rw [hwait] at he
  cases he
  have hstage : (w.play before).stage? n ≠ some .finished := by
    rw [stage?_eq_some hwait, hinformed.stage_of_hears hhears]
    decide
  obtain ⟨e, he⟩ := h.exists_waitAt?
  refine ⟨a, rfl, before.length + 1, ?_, ?_, ?_⟩
  · rw [List.length_append, List.length_cons]
    omega
  · intro i hi
    rw [List.take_append_of_le_length (Nat.le_of_lt_succ hi)]
    exact stage?_take_ne_finished he hstage i
  · rw [List.take_length_add_append, List.take_succ_cons, List.take_zero, play_append]
    exact Ledger.mem_insert_self a _

/-- What a wait is shown stands in the ledger while it goes on. -/
theorem Begins.standsDuring_of_mem (h : w.Begins n request) {listed : List RawAccount}
    {seen : List (Address × Bytes)} {j : Nat}
    (hlists : w.ListsWith n request.filters moves j listed) (hseen : seen <+: w.arrivals n moves)
    {c : Address × Bytes} (hc : c ∈ listed.map RawAccount.change ++ seen) :
    ∃ a, c = a.change ∧ w.StandsDuring n moves a := by
  rcases List.mem_append.mp hc with hc | hc
  · obtain ⟨account, haccount, rfl⟩ := List.mem_map.mp hc
    exact ⟨account, rfl, hlists.standsDuring haccount⟩
  · exact h.standsDuring_of_mem_arrivals (hseen.subset hc)

/-- A wait that ends well has found what its listing and the changes after it show, up to the first
moment at which that is enough. -/
theorem Begins.foundIn_of_outcomeAt? (h : w.Begins n request) {found : Found kind.Record}
    (hend : (w.play moves).outcomeAt? n = some ⟨kind, .ok found⟩) :
    ∃ j listed seen, w.ListsWith n request.filters moves j listed ∧ seen <+: w.arrivals n moves ∧
      request.CompletesWith (listed.map RawAccount.change) seen ∧
      found = request.foundIn (listed.map RawAccount.change ++ seen) := by
  obtain ⟨wait, listed?, hwait, rfl, hinformed, hlisted⟩ := h.informed_play moves
  rw [outcomeAt?_eq_some_iff hwait] at hend
  obtain ⟨listed, seen, rfl, hseen, hfound, hcomplete⟩ := hinformed.found_of_outcome? hend
  obtain ⟨j, hlists⟩ := hlisted listed rfl
  exact ⟨j, listed, seen, hlists, hseen, hcomplete, hfound⟩

/-- A wait that ends well answers with records of its targets, each read from an account with the
wanted status that stood in the ledger while the wait went on. They are what its listing and the
changes after it show, up to the first moment at which that is enough. -/
theorem answersWith_of_outcomeAt? (w : World) (id : String)
    (request : WaitRequest kind.Record kind.Status) (timeout : Option UInt64) (moves : List Move)
    {found : Found kind.Record}
    (hend : ((w.startWait id kind request timeout).play moves).outcomeAt? w.waits.length =
      some ⟨kind, .ok found⟩) :
    (∀ key a, (key, a) ∈ found → key ∈ request.targets ∧ ∃ account,
      (w.startWait id kind request timeout).StandsDuring w.waits.length moves account ∧
      request.watch.decode account.data = .ok a ∧ request.watch.statusOf a = request.status ∧
      (request.watch.keyOf a).getD (.address account.address) = key) ∧
    ∃ j listed seen, (w.startWait id kind request timeout).ListsWith w.waits.length
        request.filters moves j listed ∧
      seen <+: (w.startWait id kind request timeout).arrivals w.waits.length moves ∧
      request.AnswersWith (listed.map RawAccount.change) seen found := by
  have hbegins := begins_startWait w id request timeout
  obtain ⟨j, listed, seen, hlists, hseen, hcomplete, rfl⟩ := hbegins.foundIn_of_outcomeAt? hend
  refine ⟨?_, j, listed, seen, hlists, hseen, hcomplete.answersWith⟩
  intro key a ha
  obtain ⟨htarget, c, hc, hobserve⟩ :=
    request.mem_sightings_iff.mp (mem_of_latest (request.mem_foundIn_iff.mp ha))
  obtain ⟨account, rfl, hstands⟩ := hbegins.standsDuring_of_mem hlists hseen hc
  exact ⟨htarget, account, hstands, Watch.observe_eq_some_iff.mp hobserve⟩

end World

/-! ## A wait for two nodes -/

/-- A node with a status, and nothing else to tell of it. -/
def NodeInfo.plain (pubkey : Address) (status : NodeStatus) : NodeInfo where
  owner := .replicate 32 1
  nodePubkey := pubkey
  nodeType := .ordinary
  status
  nodeInfoCid := none
  codeMeasurement := none
  teeSigningPubkey := none
  nodeTreasury := .replicate 32 1
  totalEarned := 0
  totalTasksCompleted := 0
  approvedValidators := []
  rejectedValidators := []
  bump := 255

/-- A node in an account. -/
def NodeInfo.storedAt (n : NodeInfo) (address : Address) : RawAccount :=
  ⟨address, Account.toData n, 1⟩

/-- A network in which node 2 is active. -/
def World.oneNode : World where
  client := { program := .replicate 32 100, network := .replicate 32 101, canSubscribe := true }
  endpoint := { ledger :=
    Ledger.empty.put ((NodeInfo.plain (.replicate 32 2) .active).storedAt (.replicate 32 12)) }

/-- Asks for nodes 2 and 3 to be active, and for node 3 once more. -/
def WaitRequest.twoNodes : WaitRequest EntityKind.node.Record EntityKind.node.Status where
  watch := NodeInfo.watch
  targets := [.address (.replicate 32 3), .address (.replicate 32 2), .address (.replicate 32 3)]
  status := NodeStatus.active
  mode := .all
  token := none

/-- Node 3 becomes active, after other changes that tell nothing of it. -/
def Move.secondNode : List Move :=
  [.happen (.account ⟨.replicate 32 13, [1, 2, 3], 1⟩), .settle,
    .happen (.account ((NodeInfo.plain (.replicate 32 3) .disabled).storedAt (.replicate 32 13))),
    .happen (.account ((NodeInfo.plain (.replicate 32 4) .active).storedAt (.replicate 32 14))),
    .happen (.account ((NodeInfo.plain (.replicate 32 3) .active).storedAt (.replicate 32 13))),
    .settle]

namespace World

set_option maxRecDepth 10000 in
theorem answersWith_twoNodes :
    ((oneNode.startWait "both" .node .twoNodes none).play Move.secondNode).outcomeAt? 0 =
        some ⟨.node, .ok
          [(.address (.replicate 32 3), NodeInfo.plain (.replicate 32 3) .active),
            (.address (.replicate 32 2), NodeInfo.plain (.replicate 32 2) .active)]⟩ ∧
      ∃ j listed seen, (oneNode.startWait "both" .node .twoNodes none).ListsWith 0
          WaitRequest.twoNodes.filters Move.secondNode j listed ∧
        seen <+: (oneNode.startWait "both" .node .twoNodes none).arrivals 0 Move.secondNode ∧
        WaitRequest.twoNodes.AnswersWith (listed.map RawAccount.change) seen
          [(.address (.replicate 32 3), NodeInfo.plain (.replicate 32 3) .active),
            (.address (.replicate 32 2), NodeInfo.plain (.replicate 32 2) .active)] := by
  have hend : ((oneNode.startWait "both" .node .twoNodes none).play Move.secondNode).outcomeAt? 0 =
      some ⟨.node, .ok
        [(.address (.replicate 32 3), NodeInfo.plain (.replicate 32 3) .active),
          (.address (.replicate 32 2), NodeInfo.plain (.replicate 32 2) .active)]⟩ := rfl
  exact ⟨hend, (answersWith_of_outcomeAt? oneNode "both" .twoNodes none Move.secondNode hend).2⟩

end World

end ComputeNet
