import ComputeNet.Proofs.Wait.Answer
import ComputeNet.Proofs.Wait.Causes

/-!
# How waits fail

A wait fails at once without the means to follow changes, and without targets. A token that was
fired comes before all other causes, and any other error is due to its cause
(`failsAsDemanded_startWait`).
-/

namespace ComputeNet.World

variable {kind : EntityKind} {n : Nat} {w : World}

theorem stage?_of_outcomeAt?
    {outcome : (kind : EntityKind) × Except ClientError (Found kind.Record)}
    (h : w.outcomeAt? n = some outcome) : w.stage? n = some .finished := by
  obtain ⟨⟨kind, wait⟩, hwait, hend⟩ := Option.bind_eq_some_iff.mp h
  obtain ⟨outcome', houtcome, -⟩ := Option.map_eq_some_iff.mp hend
  rw [stage?_eq_some hwait]
  by_contra hne
  have hnone := Wait.outcome?_eq_none_iff.mpr fun heq => hne (congrArg some heq)
  cases hnone.symm.trans houtcome

/-- A wait that is over stays as it is. -/
theorem waitAt?_play_of_over {e : EntityWait} (h : w.waitAt? n = some e)
    {outcome : Except ClientError (Found e.kind.Record)} (hend : e.wait.outcome? = some outcome)
    (hstream : e.wait.stream = none) (hlets : e.wait.LetsGo) (moves : List Move) :
    (w.play moves).waitAt? n = some e := by
  induction moves generalizing w with
  | nil => exact h
  | cons m moves ih =>
    obtain ⟨polls, -, hwaits⟩ := waitAt?_act w m
    have hact := hwaits n e h
    rw [EntityWait.modify, Wait.undergo_eq_self hstream,
      Wait.pollAll_eq_self hlets hend] at hact
    exact ih hact

theorem isCalledOff_act {α σ : Type} {r : WaitRequest α σ} (h : r.isCalledOff w.fired = true)
    (m : Move) : r.isCalledOff (w.act m).fired = true := by
  obtain ⟨token, htoken, hfired⟩ := (Option.any_eq_true ..).mp h
  refine (Option.any_eq_true ..).mpr ⟨token, htoken, decide_eq_true ?_⟩
  rw [fired_act]
  exact List.mem_append_right _ (of_decide_eq_true hfired)

theorem isCalledOff_play {α σ : Type} {r : WaitRequest α σ} (h : r.isCalledOff w.fired = true)
    (moves : List Move) : r.isCalledOff (w.play moves).fired = true := by
  induction moves generalizing w with
  | nil => exact h
  | cons m moves ih => exact ih (isCalledOff_act h m)

section CalledOff

variable {request : WaitRequest kind.Record kind.Status} {wait : Wait kind.Record kind.Status}

/-- A move polls a wait whose token was fired not at all, or calls it off. -/
private theorem calledOff_act (hwait : w.waitAt? n = some ⟨kind, wait⟩)
    (hopen : wait.outcome? = none)
    (hcan : w.client.canSubscribe = true) (htargets : wait.request.targets ≠ [])
    (hfired : wait.request.isCalledOff w.fired = true) (m : Move) :
    (w.act m).outcomeAt? n = none ∨ (w.act m).outcomeAt? n = some ⟨kind, .error .cancelled⟩ := by
  obtain ⟨polls, hpolls, hwaits⟩ := waitAt?_act w m
  have hact := hwaits n _ hwait
  have hstruck : (wait.undergo m).outcome? = none := (wait.outcome?_undergo m).trans hopen
  cases polls with
  | nil => exact Or.inl ((outcomeAt?_eq_none_iff hact).mpr hstruck)
  | cons s polls =>
    have hs := hpolls s List.mem_cons_self
    have hrequest := (Wait.follows_undergo wait m).request
    have hcancelled : ((wait.undergo m).poll s).outcome? = some (.error .cancelled) := by
      apply Wait.outcome?_poll_of_isCalledOff hstruck
      · rw [hs.canSubscribe, w.client_act m, hcan]
      · rwa [hrequest]
      · apply Wait.isCalledOff_of_request
        rw [hrequest, hs.fired]
        exact isCalledOff_act hfired m
    have hall : (wait.undergo m).pollAll (s :: polls) = (wait.undergo m).turn s :=
      Wait.pollAll_letGo hcancelled polls
    refine Or.inr ((outcomeAt?_eq_some_iff hact).mpr ?_)
    exact (congrArg Wait.outcome? hall).trans ((Wait.outcome?_letGo _).trans hcancelled)

private theorem calledOff_settle (hwait : w.waitAt? n = some ⟨kind, wait⟩)
    (hopen : wait.outcome? = none)
    (hcan : w.client.canSubscribe = true) (htargets : wait.request.targets ≠ [])
    (hfired : wait.request.isCalledOff w.fired = true) :
    w.settle.outcomeAt? n = some ⟨kind, .error .cancelled⟩ := by
  have hsettle := waitAt?_settle w n
  rw [hwait] at hsettle
  rw [outcomeAt?_eq_some_iff hsettle]
  exact (Wait.outcome?_letGo _).trans
    (Wait.outcome?_poll_of_isCalledOff hopen hcan htargets (Wait.isCalledOff_of_request hfired))

/-- Nothing becomes of a wait that is over. -/
theorem Begins.waitAt?_append (h : w.Begins n request) {moves : List Move}
    {outcome : (kind : EntityKind) × Except ClientError (Found kind.Record)}
    (hend : (w.play moves).outcomeAt? n = some outcome) (more : List Move) :
    (w.play (moves ++ more)).waitAt? n = (w.play moves).waitAt? n := by
  obtain ⟨wait, listed, hwait, -, hinformed, -⟩ := h.informed_play moves
  cases hopen : wait.outcome? with
  | none => cases ((outcomeAt?_eq_none_iff hwait).mpr hopen).symm.trans hend
  | some outcome' =>
    rw [play_append, hwait]
    exact waitAt?_play_of_over hwait hopen (hinformed.stream_eq_none hopen) (h.letsGo_play hwait)
      more

/-- A wait that is over keeps its outcome. -/
theorem Begins.outcomeAt?_append (h : w.Begins n request) {moves : List Move}
    {outcome : (kind : EntityKind) × Except ClientError (Found kind.Record)}
    (hend : (w.play moves).outcomeAt? n = some outcome) (more : List Move) :
    (w.play (moves ++ more)).outcomeAt? n = some outcome := by
  rw [← hend, outcomeAt?, outcomeAt?, h.waitAt?_append hend more]

/-- A wait that is over was ended by one of the moves, unless it had been over before them. -/
theorem Begins.exists_last (h : w.Begins n request) {moves : List Move}
    {outcome : Except ClientError (Found kind.Record)}
    (hend : (w.play moves).outcomeAt? n = some ⟨kind, outcome⟩) :
    w.outcomeAt? n = some ⟨kind, outcome⟩ ∨ ∃ before m rest, moves = before ++ [m] ++ rest ∧
      (w.play before).outcomeAt? n = none ∧
      (w.play (before ++ [m])).outcomeAt? n = some ⟨kind, outcome⟩ := by
  induction moves using List.reverseRecOn with
  | nil => exact Or.inl hend
  | append_singleton moves m ih =>
    obtain ⟨wait, -, hwait, -⟩ := h.informed_play moves
    cases hbefore : wait.outcome? with
    | some outcome' =>
      -- The wait had been over before the last move.
      have hover := (outcomeAt?_eq_some_iff hwait).mpr hbefore
      have hstays := h.outcomeAt?_append hover [m]
      rw [hend, ← hover] at hstays
      refine (ih hstays.symm).imp_right ?_
      rintro ⟨before, m', rest, rfl, hlast⟩
      exact ⟨before, m', rest ++ [m], by rw [List.append_assoc], hlast⟩
    | none =>
      exact Or.inr ⟨moves, m, [], (List.append_nil _).symm,
        (outcomeAt?_eq_none_iff hwait).mpr hbefore, hend⟩

theorem endsAfter_nil {outcome : (kind : EntityKind) × Except ClientError (Found kind.Record)}
    (hend : w.outcomeAt? n = some outcome) : w.EndsAfter n [] :=
  ⟨stage?_of_outcomeAt? hend, fun _ hearlier hne => absurd (List.prefix_nil.mp hearlier) hne⟩

theorem Begins.endsAfter_concat (h : w.Begins n request) {before : List Move} {m : Move}
    {outcome : (kind : EntityKind) × Except ClientError (Found kind.Record)}
    (hbefore : (w.play before).outcomeAt? n = none)
    (hend : (w.play (before ++ [m])).outcomeAt? n = some outcome) :
    w.EndsAfter n (before ++ [m]) := by
  obtain ⟨wait, -, hwait, -⟩ := h.informed_play before
  obtain ⟨start, hstart⟩ := h.exists_waitAt?
  refine ⟨stage?_of_outcomeAt? hend, ?_⟩
  intro earlier hearlier hne
  have hmoves := (List.prefix_concat_iff.mp hearlier).resolve_left hne
  have hopen : (w.play before).stage? n ≠ some .finished := by
    rw [stage?_eq_some hwait]
    have hstage := Wait.outcome?_eq_none_iff.mp ((outcomeAt?_eq_none_iff hwait).mp hbefore)
    exact fun heq => hstage (Option.some.inj heq)
  rw [List.prefix_iff_eq_take.mp hmoves]
  exact stage?_take_ne_finished hstart hopen _

/-- Once its token was fired, a wait that goes on is called off as soon as it is polled. -/
theorem Begins.calledOff_play (h : w.Begins n request) (hcan : w.client.canSubscribe = true)
    (htargets : request.targets ≠ []) {before : List Move}
    (hopen : (w.play before).outcomeAt? n = none)
    (hfired : request.isCalledOff (w.play before).fired = true) (after : List Move) :
    ((w.play (before ++ after)).outcomeAt? n = none ∨
      (w.play (before ++ after)).outcomeAt? n = some ⟨kind, .error .cancelled⟩) ∧
    (w.play (before ++ after)).settle.outcomeAt? n = some ⟨kind, .error .cancelled⟩ := by
  have hclient (moves : List Move) : (w.play moves).client.canSubscribe = true := by
    rw [client_play, hcan]
  have hcalled (moves : List Move) :
      request.isCalledOff (w.play (before ++ moves)).fired = true := by
    rw [play_append]
    exact isCalledOff_play hfired moves
  have hnone {moves : List Move} (hmoves : (w.play moves).outcomeAt? n = none) :
      ∃ wait, (w.play moves).waitAt? n = some ⟨kind, wait⟩ ∧ wait.request = request ∧
        wait.outcome? = none := by
    obtain ⟨wait, -, hwait, hrequest, -⟩ := h.informed_play moves
    exact ⟨wait, hwait, hrequest, (outcomeAt?_eq_none_iff hwait).mp hmoves⟩
  have hfirst : (w.play (before ++ after)).outcomeAt? n = none ∨
      (w.play (before ++ after)).outcomeAt? n = some ⟨kind, .error .cancelled⟩ := by
    induction after using List.reverseRecOn with
    | nil =>
      rw [List.append_nil]
      exact Or.inl hopen
    | append_singleton after m ih =>
      rw [← List.append_assoc]
      rcases ih with ih | ih
      · obtain ⟨wait, hwait, rfl, hopen'⟩ := hnone ih
        rw [play_concat]
        exact calledOff_act hwait hopen' (hclient _) htargets (hcalled after) m
      · exact Or.inr (h.outcomeAt?_append ih [m])
  refine ⟨hfirst, ?_⟩
  rcases hfirst with hfirst | hfirst
  · obtain ⟨wait, hwait, rfl, hopen'⟩ := hnone hfirst
    exact calledOff_settle hwait hopen' (hclient _) htargets (hcalled after)
  · have hsettle := h.outcomeAt?_append hfirst [.settle]
    rwa [play_append] at hsettle

end CalledOff

/-- A wait that failed as soon as it was asked for. It has opened no stream, the endpoint has no
part in it, and its own token has been fired. -/
def refused (w : World) (request : WaitRequest kind.Record kind.Status) (timeout : Option UInt64)
    (e : ClientError) : EntityWait :=
  ⟨kind, { w.client.wait w.now request timeout with
    phase := .finished (.error e) w.now
    ownFired := true }⟩

section Start

variable (w : World) (id : String) (request : WaitRequest kind.Record kind.Status)
  (timeout : Option UInt64)

/-- A wait that is refused when it is polled first stays so. -/
theorem waitAt?_of_refused {e : ClientError}
    (h : (w.client.wait w.now request timeout).turn w.surroundings =
      (w.refused request timeout e).wait) (moves : List Move) :
    ((w.startWait id kind request timeout).play moves).waitAt? w.waits.length =
      some (w.refused request timeout e) := by
  have hstart := waitAt?_startWait w id kind request timeout
  rw [h] at hstart
  exact waitAt?_play_of_over hstart rfl rfl rfl moves

theorem turn_missing (hcan : w.client.canSubscribe = false) :
    (w.client.wait w.now request timeout).turn w.surroundings =
      (w.refused request timeout .missingSubscriptionTransport).wait := by
  have hbegin : (w.client.wait w.now request timeout).begin w.surroundings =
      (w.client.wait w.now request timeout).finish w.surroundings
        (.error .missingSubscriptionTransport) := by
    simp [Wait.begin, Client.wait, surroundings, hcan]
  rw [Wait.turn, Wait.poll_eq_begin hbegin rfl]
  rfl

theorem turn_emptyTargets (hcan : w.client.canSubscribe = true) (htargets : request.targets = []) :
    (w.client.wait w.now request timeout).turn w.surroundings =
      (w.refused request timeout .emptyTargets).wait := by
  have hbegin : (w.client.wait w.now request timeout).begin w.surroundings =
      (w.client.wait w.now request timeout).finish w.surroundings (.error .emptyTargets) := by
    simp [Wait.begin, Client.wait, surroundings, hcan, htargets]
  rw [Wait.turn, Wait.poll_eq_begin hbegin rfl]
  rfl

private theorem turn_cancelled (hcan : w.client.canSubscribe = true)
    (htargets : request.targets ≠ []) (hfired : request.isCalledOff w.fired = true) :
    (w.client.wait w.now request timeout).turn w.surroundings =
      (w.refused request timeout .cancelled).wait := by
  have hnil : request.targets.isEmpty = false := by simpa using htargets
  have hbegin : (w.client.wait w.now request timeout).begin w.surroundings =
      { w.client.wait w.now request timeout with
        phase := .listing (w.now + w.endpoint.listingDelay) } := by
    simp [Wait.begin, Client.wait, surroundings, hcan, hnil]
  have hheed : ((w.client.wait w.now request timeout).begin w.surroundings).heed w.surroundings =
      (w.client.wait w.now request timeout).finish w.surroundings (.error .cancelled) := by
    rw [hbegin, Wait.heed, Wait.isCalledOff_of_request hfired]
    rfl
  rw [Wait.turn, Wait.poll_eq_heed hheed rfl]
  rfl

/-- A wait that ended with an error ended with it after some moves, for one of the causes. -/
theorem exists_demands {moves : List Move} {e : ClientError}
    (hend : ((w.startWait id kind request timeout).play moves).outcomeAt? w.waits.length =
      some ⟨kind, .error e⟩) :
    ∃ done rest, moves = done ++ rest ∧
      (w.startWait id kind request timeout).EndsAfter w.waits.length done ∧
      (w.startWait id kind request timeout).Demands w.waits.length request
        (w.client.wait w.now request timeout).deadline done e := by
  have hbegins := begins_startWait w id request timeout
  have hstart := waitAt?_startWait w id kind request timeout
  have hkeeps := Wait.keeps_turn w.surroundings (w.client.wait w.now request timeout)
  have hopen : ∀ stream, ((w.client.wait w.now request timeout).turn w.surroundings).stream =
      some stream → stream.closed = false := by
    intro stream hstream
    by_contra hclosed
    obtain ⟨stream', hstream', -⟩ := hkeeps.closed stream hstream (Bool.of_not_eq_false hclosed)
    cases hstream'
  rcases hbegins.exists_last hend with hend' | ⟨before, m, rest, rfl, hbefore, hend'⟩
  · refine ⟨[], moves, rfl, endsAfter_nil hend', ?_⟩
    rw [outcomeAt?_eq_some_iff hstart, Wait.turn, Wait.outcome?_letGo] at hend'
    have hsurrounds : ((w.startWait id kind request timeout).play []).Surrounds
        w.surroundings := by
      rw [play_nil, ← surroundings_startWait w id request timeout]
      exact surrounds_surroundings _
    have hstarting : (w.client.wait w.now request timeout).Informed none [] := .starting
    refine demands_of_fails hsurrounds rfl hstarting rfl rfl ?_ (Wait.fails_of_poll rfl hend')
    intro stream hstream
    cases hstream
  · refine ⟨before ++ [m], rest, rfl, hbegins.endsAfter_concat hbefore hend', ?_⟩
    rw [← hkeeps.deadline]
    exact hbegins.demands_act hstart hopen before m hbefore hend'

end Start

/-- How the `n`-th wait fails, which was started in the world `w` and led to the world `w'`. -/
structure FailsAsDemanded (w w' : World) (n : Nat) (request : WaitRequest kind.Record kind.Status)
    (timeout : Option UInt64) : Prop where
  /-- Without the means to follow changes it fails at once. -/
  missing : w.client.canSubscribe = false → ∀ moves,
    (w'.play moves).waitAt? n = some (w.refused request timeout .missingSubscriptionTransport)
  /-- Else it does so without targets. -/
  empty : w.client.canSubscribe = true → request.targets = [] → ∀ moves,
    (w'.play moves).waitAt? n = some (w.refused request timeout .emptyTargets)
  /-- Else it does so if its token was fired before. -/
  early : w.client.canSubscribe = true → request.targets ≠ [] →
    request.isCalledOff w.fired = true → ∀ moves,
    (w'.play moves).waitAt? n = some (w.refused request timeout .cancelled)
  /-- If its token was fired later and before it was over, it ends with no other outcome, as soon as
  it is polled. -/
  late : w.client.canSubscribe = true → request.targets ≠ [] → ∀ before,
    (w'.play before).outcomeAt? n = none → request.isCalledOff (w'.play before).fired = true →
    ∀ after, ((w'.play (before ++ after)).outcomeAt? n = none ∨
        (w'.play (before ++ after)).outcomeAt? n = some ⟨kind, .error .cancelled⟩) ∧
      (w'.play (before ++ after)).settle.outcomeAt? n = some ⟨kind, .error .cancelled⟩
  /-- Whatever error it ends with, it does so at some moment for the cause of that error. -/
  caused : ∀ moves e, (w'.play moves).outcomeAt? n = some ⟨kind, .error e⟩ →
    ∃ done rest, moves = done ++ rest ∧ w'.EndsAfter n done ∧
      w'.Demands n request (w.client.wait w.now request timeout).deadline done e

theorem failsAsDemanded_startWait (w : World) (id : String)
    (request : WaitRequest kind.Record kind.Status) (timeout : Option UInt64) :
    w.FailsAsDemanded (w.startWait id kind request timeout) w.waits.length request timeout where
  missing hcan := waitAt?_of_refused w id request timeout (turn_missing w request timeout hcan)
  empty hcan htargets := waitAt?_of_refused w id request timeout
    (turn_emptyTargets w request timeout hcan htargets)
  early hcan htargets hfired := waitAt?_of_refused w id request timeout
    (turn_cancelled w request timeout hcan htargets hfired)
  late hcan htargets _ hopen hfired after :=
    (begins_startWait w id request timeout).calledOff_play
      ((client_startWait w id request timeout).symm ▸ hcan) htargets hopen hfired after
  caused _ _ hend := exists_demands w id request timeout hend

/-! ## A wait whose stream ends -/

/-- Asks for two nodes to be active, until token 7 is fired. -/
def twoNodesUntilFired : WaitRequest EntityKind.node.Record EntityKind.node.Status :=
  { WaitRequest.twoNodes with token := some 7 }

set_option maxRecDepth 10000 in
/-- Node 3 is not seen before the stream ends. But a token that is fired as well comes first. -/
theorem failsAsDemanded_twoNodes :
    ((oneNode.startWait "both" .node twoNodesUntilFired none).play
        [.happen .streamsClose, .settle]).outcomeAt? 0 =
      some ⟨.node, .error (.streamEnded "Active")⟩ ∧
    (∃ done rest, [.happen .streamsClose, .settle] = done ++ rest ∧
      (oneNode.startWait "both" .node twoNodesUntilFired none).EndsAfter 0 done ∧
      (oneNode.startWait "both" .node twoNodesUntilFired none).Demands 0 twoNodesUntilFired none
        done (.streamEnded "Active")) ∧
    ((oneNode.startWait "both" .node twoNodesUntilFired none).play
        [.happen .streamsClose, .happen (.fire 7)]).settle.outcomeAt? 0 =
      some ⟨.node, .error .cancelled⟩ := by
  have hfails := failsAsDemanded_startWait oneNode "both" twoNodesUntilFired none
  have hend : ((oneNode.startWait "both" .node twoNodesUntilFired none).play
      [.happen .streamsClose, .settle]).outcomeAt? 0 =
        some ⟨.node, .error (.streamEnded "Active")⟩ := rfl
  have hfired := hfails.late rfl (by decide) [.happen .streamsClose, .happen (.fire 7)] rfl rfl []
  exact ⟨hend, hfails.caused _ _ hend, hfired.2⟩

end ComputeNet.World
