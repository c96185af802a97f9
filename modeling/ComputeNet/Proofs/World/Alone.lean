import ComputeNet.Proofs.Feed.Moves
import ComputeNet.Proofs.Wait.Failures
import ComputeNet.Proofs.Wait.Timers
import ComputeNet.Proofs.World.Clock
import ComputeNet.Proofs.World.Tokens

/-!
# Waits among others

A wait goes as it would if it were the only one, without any feeds (`undisturbed_play`): what it has
in common with others is the endpoint, the clock and the tokens of callers, and neither waits nor
feeds change these. The clock stops at the timers of other waits too, but a wait that has nothing
left to do when time begins to pass finds nothing to do there either (`keep_runUntil`). In a run no
wait ever has (`faresAlone_run`).
-/

namespace ComputeNet

/-- The move lets time pass. -/
def Move.letsTimePass : Move → Bool
  | .happen (.time _) => true
  | .happen (.list ..) => true
  | .happen (.history ..) => true
  | _ => false

/-- The same move, but a wait is not started: only the work in the background is done that its start
sets off. -/
def Move.withoutWait : Move → Move
  | .happen (.wait ..) => .settle
  | m => m

namespace World

/-- The world with one of its waits, or with none, and without its feeds. -/
def keep (w : World) (k : Option Nat) : World :=
  { w with waits := (k.bind fun n => w.waits.reverse[n]?).toList, feeds := [] }

/-- The world without its waits and feeds. -/
abbrev deserted (w : World) : World := w.keep none

/-- What is left of a move where it starts no wait and neither opens nor cancels a feed: the work in
the background that it sets off. -/
def residue (w : World) : Move → List Move
  | .happen (.wait ..) => [.settle]
  | .happen (.subscribe ..) => if w.canOpen then [.settle] else []
  | .happen (.cancelFeed _) => []
  | m => [m]

/-- What is left of some moves. -/
def residues (w : World) : List Move → List Move
  | [] => []
  | m :: moves => w.residue m ++ (w.act m).residues moves

/-- Nothing is left to do for the waits now. -/
def AtRest (w : World) : Prop :=
  ∀ e ∈ w.waits, e.wait.wait.Rests w.surroundings ∧ e.wait.wait.LetsGo

variable {w w' : World} {k : Option Nat}

private theorem atRest_deserted (w : World) : w.deserted.AtRest := by
  intro e he
  cases he

theorem mem_waits_keep {e : WaitEntry} (h : e ∈ (w.keep k).waits) : e ∈ w.waits := by
  obtain ⟨n, -, hn⟩ := Option.bind_eq_some_iff.mp (Option.mem_toList.mp h)
  exact List.mem_reverse.mp (List.mem_of_getElem? hn)

theorem keep_mapWaits (w : World) (k : Option Nat)
    (f : {α σ : Type} → [Enumeration σ] → [DecidableEq σ] → Wait α σ → Wait α σ) :
    (w.mapWaits f).keep k = (w.keep k).mapWaits f := by
  cases k with
  | none => rfl
  | some n =>
    simp only [keep, mapWaits, Option.bind_some, ← List.map_reverse, List.getElem?_map]
    cases w.waits.reverse[n]? <;> rfl

theorem keep_settle (w : World) (k : Option Nat) : w.settle.keep k = (w.keep k).settle := by
  rw [settle_eq, settle_eq]
  exact keep_mapWaits w k (·.turn w.surroundings)

/-! ## Time passes -/

private theorem atRest_settle (h : ∀ e ∈ w.waits, e.wait.wait.LetsGo) : w.settle.AtRest := by
  intro e he
  rw [settle_surroundings]
  rw [settle_eq] at he
  obtain ⟨e', he', rfl⟩ := List.mem_map.mp he
  exact ⟨Wait.rests_turn e'.wait.wait w.surroundings, (h e' he').turn w.surroundings⟩

/-- Until the next of its timers nothing happens in a world at rest. -/
theorem AtRest.settleAt (h : w.AtRest) (hfeeds : w.feeds = []) {later : Nat}
    (hearly : ∀ e ∈ w.waits, ∀ time ∈ e.wait.wait.timers, later < time) :
    ({ w with now := later } : World).settle = { w with now := later } := by
  have hturns : (w.waits.map fun e => { e with
      wait := e.wait.modify fun v => v.turn ({ w with now := later } : World).surroundings }) =
        w.waits := by
    refine (List.map_congr_left fun e he => ?_).trans (List.map_id w.waits)
    obtain ⟨hrests, hlets⟩ := h e he
    have hturn : e.wait.wait.turn ({ w with now := later } : World).surroundings = e.wait.wait :=
      hrests.turn_eq_self hlets rfl (hearly e he)
    rw [EntityWait.modify, hturn, id]
  rw [settle_eq]
  obtain ⟨client, endpoint, now, fired, waits, feeds⟩ := w
  cases hfeeds
  exact congrArg (World.mk client endpoint later fired · []) hturns

/-- The next timer of the waits that are kept is not before the next timer of all. -/
theorem nextTimer?_keep {next : Nat} (hnext : (w.keep k).nextTimer? = some next) :
    ∃ time ≤ next, w.nextTimer? = some time := by
  obtain ⟨⟨e, he, hmem⟩, hlt, -⟩ := nextTimer?_eq_some_iff.mp hnext
  cases hfirst : w.nextTimer? with
  | none =>
    have hle := nextTimer?_eq_none_iff.mp hfirst e (mem_waits_keep he) next hmem
    exact absurd hlt (Nat.not_lt.mpr hle)
  | some time =>
    exact ⟨time, (nextTimer?_eq_some_iff.mp hfirst).2.2 e (mem_waits_keep he) next hmem hlt, rfl⟩

/-- It makes no difference if the clock stops before the next timer of a world. -/
private theorem runUntil_of_early {target time : Nat} (hnow : w.now ≤ time)
    (htarget : time ≤ target) (hearly : ∀ e ∈ w.waits, ∀ later ∈ e.wait.wait.timers, time < later) :
    ({ w with now := time } : World).runUntil target = w.runUntil target := by
  have hsame : ({ w with now := time } : World).nextTimer? = w.nextTimer? := by
    cases hnext : w.nextTimer? with
    | none =>
      rw [nextTimer?_eq_none_iff] at hnext ⊢
      exact fun e he later hlater => Nat.le_trans (hnext e he later hlater) hnow
    | some next =>
      obtain ⟨⟨e, he, hmem⟩, -, hleast⟩ := nextTimer?_eq_some_iff.mp hnext
      refine nextTimer?_eq_some_iff.mpr ⟨⟨e, he, hmem⟩, hearly e he next hmem, ?_⟩
      exact fun e he later hlater hlt => hleast e he later hlater (Nat.lt_of_le_of_lt hnow hlt)
  rw [runUntil, runUntil.eq_def target w, hsame]
  cases hnext : w.nextTimer? with
  | none =>
    dsimp only
    rw [Nat.max_eq_right htarget, Nat.max_eq_right (Nat.le_trans hnow htarget)]
  | some next =>
    obtain ⟨⟨e, he, hmem⟩, hlt, -⟩ := nextTimer?_eq_some_iff.mp hnext
    have hlt' := hearly e he next hmem
    dsimp only
    rw [Nat.max_eq_right htarget, Nat.max_eq_right (Nat.le_trans hnow htarget)]
    by_cases hle : next ≤ target
    · rw [if_pos ⟨hlt', hle⟩, if_pos ⟨hlt, hle⟩]
    · rw [if_neg fun h => hle h.2, if_neg fun h => hle h.2]

theorem runUntil_of_last {target : Nat} (hlast : ∀ next, w.nextTimer? = some next → target < next) :
    w.runUntil target = ({ w with now := max w.now target } : World).settle := by
  rw [runUntil]
  cases hnext : w.nextTimer? with
  | none => rfl
  | some next => exact if_neg fun h => Nat.not_lt.mpr h.2 (hlast next hnext)

/-- While time passes, the waits that are left out make no difference. -/
theorem keep_runUntil (h : (w.keep k).AtRest) (target : Nat) :
    (w.runUntil target).keep k = (w.keep k).runUntil target := by
  fun_induction World.runUntil target w with
  | case1 w time htime hnext ih =>
    have hsettled : (({ w with now := time } : World).settle.keep k).AtRest := by
      rw [keep_settle]
      exact atRest_settle fun e he => (h e he).2
    rw [ih hsettled, keep_settle]
    by_cases hsame : (w.keep k).nextTimer? = some time
    · rw [runUntil.eq_def target (w.keep k), hsame]
      exact (if_pos hnext).symm
    · -- The clock stops for another wait.
      have hearly : ∀ e ∈ (w.keep k).waits, ∀ later ∈ e.wait.wait.timers, time < later := by
        intro e he later hlater
        have hlt := (h e he).1.timers later hlater
        have hleast := (nextTimer?_eq_some_iff.mp htime).2.2
        refine Nat.lt_of_le_of_ne (hleast e (mem_waits_keep he) later hlater hlt) ?_
        rintro rfl
        refine hsame (nextTimer?_eq_some_iff.mpr ⟨⟨e, he, hlater⟩, hlt, ?_⟩)
        exact fun e' he' => hleast e' (mem_waits_keep he')
      exact (congrArg (World.runUntil target) (h.settleAt rfl hearly)).trans
        (runUntil_of_early (Nat.le_of_lt hnext.1) hnext.2 hearly)
  | case2 w time htime hlast =>
    rw [keep_settle, runUntil_of_last]
    · rfl
    · intro next hnext
      obtain ⟨time', hle, htime'⟩ := nextTimer?_keep hnext
      cases htime.symm.trans htime'
      have hlt := (nextTimer?_eq_some_iff.mp htime).2.1
      omega
  | case3 w htime =>
    rw [keep_settle, runUntil_of_last]
    · rfl
    · intro next hnext
      obtain ⟨time', -, htime'⟩ := nextTimer?_keep hnext
      cases htime.symm.trans htime'

/-! ## Moves -/

/-- The waits and feeds that are left out make no difference. -/
theorem keep_act {m : Move} (h : m.letsTimePass = true → (w.keep k).AtRest)
    (hthere : ∀ n, k = some n → n < w.waits.length) :
    (w.act m).keep k = (w.keep k).play (w.residue m) := by
  cases m with
  | settle => exact keep_settle w k
  | happen happening =>
    cases happening with
    | account a => exact congrArg (fun w' : World => { w' with
        endpoint := { w'.endpoint with ledger := w'.endpoint.ledger.put a } }) (keep_mapWaits w k _)
    | streamsClose => exact keep_mapWaits w k _
    | time ms => exact keep_runUntil (h rfl) _
    | list kind status => exact keep_runUntil (h rfl) _
    | history scope options =>
      refine keep_runUntil (fun e he => ?_) _
      obtain ⟨⟨hbegun, hquiet, htimers, hstream⟩, hlets⟩ := h rfl e he
      exact ⟨⟨hbegun, hquiet, htimers, hstream⟩, hlets⟩
    | wait id kind request timeout =>
      rw [act, after, startWait, keep_settle, residue, play_cons, play_nil, act]
      congr 1
      cases k with
      | none => rfl
      | some n =>
        have hlt := hthere n rfl
        simp only [keep, Option.bind_some, getElem?_reverse_cons, Nat.ne_of_lt hlt, if_false]
    | subscribe id scope asks failsAt =>
      rw [act, after_subscribe, residue]
      split
      · exact keep_settle _ k
      · rfl
    | _ => rfl

/-- Nothing is left to do for the `n`-th wait now. -/
def RestsAt (w : World) (n : Nat) : Prop :=
  ∀ e, w.waitAt? n = some e → e.wait.Rests w.surroundings

/-- Whenever one of the moves lets time pass, nothing is left to do for the `n`-th wait. If there
were, the wait would get to it at the next timer of any wait, sooner than alone. -/
def Paced (w : World) (n : Nat) : List Move → Prop
  | [] => True
  | m :: moves => (m.letsTimePass = true → w.RestsAt n) ∧ (w.act m).Paced n moves

theorem restsAt_settle (w : World) (n : Nat) : w.settle.RestsAt n := by
  intro e he
  rw [waitAt?_settle, Option.map_eq_some_iff] at he
  obtain ⟨e', -, rfl⟩ := he
  rw [settle_surroundings]
  exact Wait.rests_turn e'.wait w.surroundings

/-- Moves are paced if all background work is done before each that lets time pass. -/
private theorem paced_flatMap (w : World) (n : Nat) (moves : List Move) :
    w.Paced n (moves.flatMap fun m => if m.letsTimePass then [.settle, m] else [m]) := by
  induction moves generalizing w with
  | nil => trivial
  | cons m moves ih =>
    rw [List.flatMap_cons]
    cases hpasses : m.letsTimePass with
    | true =>
      exact ⟨fun hsettle => (nomatch hsettle), fun _ => w.restsAt_settle n, ih _⟩
    | false =>
      refine ⟨fun htrue => ?_, ih _⟩
      cases hpasses.symm.trans htrue

/-- A run is paced if nothing is left to do before it. -/
private theorem paced_run {n : Nat} (h : w.RestsAt n) (hs : List Happening) :
    w.Paced n (hs.flatMap fun happening => [.happen happening, .settle]) := by
  induction hs generalizing w with
  | nil => trivial
  | cons happening hs ih =>
    exact ⟨fun _ => h, fun hsettle => (nomatch hsettle), ih (restsAt_settle _ n)⟩

/-- The `n`-th wait is on its course. -/
def GoesAt (w : World) (n : Nat) : Prop := ∃ e, w.waitAt? n = some e ∧ e.wait.LetsGo

theorem GoesAt.act {n : Nat} (h : w.GoesAt n) (m : Move) : (w.act m).GoesAt n := by
  obtain ⟨e, he, hlets⟩ := h
  obtain ⟨wait, hwait, -⟩ := follows_play he [m]
  exact ⟨_, hwait, letsGo_play he hlets hwait⟩

theorem GoesAt.lt_length {n : Nat} (h : w.GoesAt n) : n < w.waits.length := by
  obtain ⟨e, he, -⟩ := h
  obtain ⟨entry, hentry, -⟩ := Option.map_eq_some_iff.mp he
  obtain ⟨hlt, -⟩ := List.getElem?_eq_some_iff.mp hentry
  rwa [List.length_reverse] at hlt

private theorem atRest_keep (h : ∀ n, k = some n → w.RestsAt n ∧ w.GoesAt n) :
    (w.keep k).AtRest := by
  intro entry hentry
  obtain ⟨n, hn, hsome⟩ := Option.bind_eq_some_iff.mp (Option.mem_toList.mp hentry)
  obtain ⟨hrests, e, he, hlets⟩ := h n hn
  have hat : w.waitAt? n = some entry.wait := by
    rw [waitAt?, hsome]
    rfl
  cases Option.some.inj (he.symm.trans hat)
  exact ⟨hrests entry.wait hat, hlets⟩

theorem keep_play {moves : List Move} (h : ∀ n, k = some n → w.Paced n moves ∧ w.GoesAt n) :
    (w.play moves).keep k = (w.keep k).play (w.residues moves) := by
  induction moves generalizing w with
  | nil => rfl
  | cons m moves ih =>
    have hact : (w.act m).keep k = (w.keep k).play (w.residue m) := by
      refine keep_act (fun hpasses => atRest_keep fun n hn => ?_) fun n hn => (h n hn).2.lt_length
      obtain ⟨hpaced, hgoes⟩ := h n hn
      exact ⟨hpaced.1 hpasses, hgoes⟩
    have hrest := ih fun n hn => ⟨(h n hn).1.2, (h n hn).2.act m⟩
    rw [play_cons, hrest, hact, residues, play_append]

/-- A wait that starts finds the world as if it were the only one, without any feeds. -/
private theorem keep_act_wait (w : World) (id : String) (kind : EntityKind)
    (request : WaitRequest kind.Record kind.Status) (timeout : Option UInt64) :
    (w.act (.happen (.wait id kind request timeout))).keep (some w.waits.length) =
      w.deserted.act (.happen (.wait id kind request timeout)) := by
  rw [act, after, startWait, keep_settle, act, after, startWait]
  congr 1
  simp only [keep, Option.bind_some, getElem?_reverse_cons, if_true]
  rfl

/-- With nothing left to do when time begins to pass, a wait goes as it would if it were the only
one, without any feeds. -/
private theorem keep_play_wait (w : World) (before : List Move) (id : String) (kind : EntityKind)
    (request : WaitRequest kind.Record kind.Status) (timeout : Option UInt64) (after : List Move)
    (hpaced : ((w.play before).startWait id kind request timeout).Paced
      (w.play before).waits.length after) :
    (w.play (before ++ .happen (.wait id kind request timeout) :: after)).keep
        (some (w.play before).waits.length) =
      w.deserted.play (w.residues before ++ .happen (.wait id kind request timeout) ::
        ((w.play before).startWait id kind request timeout).residues after) := by
  have hbefore : (w.play before).deserted = w.deserted.play (w.residues before) :=
    keep_play fun _ hn => nomatch hn
  have hstart := keep_act_wait (w.play before) id kind request timeout
  have hgoes : ((w.play before).startWait id kind request timeout).GoesAt
      (w.play before).waits.length := by
    have hlets : ((w.play before).client.wait (w.play before).now request timeout).LetsGo := rfl
    exact ⟨_, waitAt?_startWait (w.play before) id kind request timeout, hlets.turn _⟩
  have hafter : (((w.play before).startWait id kind request timeout).play after).keep
      (some (w.play before).waits.length) =
        (((w.play before).startWait id kind request timeout).keep
          (some (w.play before).waits.length)).play
        (((w.play before).startWait id kind request timeout).residues after) := by
    refine keep_play ?_
    rintro n ⟨⟩
    exact ⟨hpaced, hgoes⟩
  rw [play_append, play_cons, play_append, play_cons, ← hbefore, ← hstart]
  exact hafter

/-! ## Feeds -/

/-- What becomes of the feeds depends on them, the client and the endpoint alone. -/
private theorem feeds_act (h : w.deserted = w'.deserted) (hfeeds : w.feeds = w'.feeds) (m : Move) :
    (w.act m).feeds = (w'.act m.withoutWait).feeds := by
  have settled {u u' : World} (hu : u.feeds = u'.feeds) : u.settle.feeds = u'.settle.feeds := by
    rw [settle_feeds, settle_feeds, mapFeeds, mapFeeds, hu]
  have passed {u u' : World} (hu : u.feeds = u'.feeds) (target target' : Nat) :
      (u.runUntil target).feeds = (u'.runUntil target').feeds := by
    rw [feeds_runUntil, feeds_runUntil, mapFeeds, mapFeeds, hu]
  have hopen : w.deserted.canOpen = w'.deserted.canOpen := congrArg canOpen h
  change w.canOpen = w'.canOpen at hopen
  cases m with
  | settle => exact settled hfeeds
  | happen happening =>
    cases happening with
    | logs notification => exact congrArg (List.map _) hfeeds
    | streamsClose => exact congrArg (List.map _) hfeeds
    | time ms => exact passed hfeeds _ _
    | list kind status => exact passed hfeeds _ _
    | history scope options =>
      refine passed ?_ _ _
      exact hfeeds
    | wait id kind request timeout =>
      refine settled ?_
      exact hfeeds
    | cancelFeed id => exact congrArg (modifyFeed id Feed.cancel) hfeeds
    | subscribe id scope asks failsAt =>
      change (w.after (.subscribe id scope asks failsAt)).feeds =
        (w'.after (.subscribe id scope asks failsAt)).feeds
      rw [after_subscribe, after_subscribe, hopen]
      split
      · refine settled ?_
        exact congrArg (⟨id, { scope, asks, failsAt }, 0⟩ :: modifyFeed id Feed.cancel ·) hfeeds
      · exact hfeeds
    | _ => exact hfeeds

theorem deserted_act (w : World) (m : Move) :
    (w.act m).deserted = w.deserted.play (w.residue m) :=
  keep_act (fun _ => w.atRest_deserted) fun _ hn => nomatch hn

/-- The client, the endpoint, the clock and the tokens of callers do not depend on waits. -/
private theorem deserted_act_withoutWait (h : w.deserted = w'.deserted) (m : Move) :
    (w.act m).deserted = (w'.act m.withoutWait).deserted := by
  have hopen : w.deserted.canOpen = w'.deserted.canOpen := congrArg canOpen h
  change w.canOpen = w'.canOpen at hopen
  have hresidue : w.residue m = w'.residue m.withoutWait := by
    cases m with
    | settle => rfl
    | happen happening =>
      cases happening with
      | subscribe id scope asks failsAt =>
        exact congrArg (fun opens : Bool => if opens then [Move.settle] else []) hopen
      | _ => rfl
  rw [deserted_act, deserted_act, h, hresidue]

/-- Feeds deliver the same whether there are waits or not. -/
private theorem feeds_play (h : w.deserted = w'.deserted) (hfeeds : w.feeds = w'.feeds)
    (moves : List Move) : (w.play moves).feeds = (w'.play (moves.map Move.withoutWait)).feeds := by
  induction moves generalizing w w' with
  | nil => exact hfeeds
  | cons m moves ih => exact ih (deserted_act_withoutWait h m) (feeds_act h hfeeds m)

/-! ## Plays -/

variable {kind : EntityKind}

/-- What the token that a wait was given, and its own one, have to do with the end of the wait: `n`
is its number in the world. -/
structure HeedsToken (w : World) (n : Nat) (request : WaitRequest kind.Record kind.Status) :
    Prop where
  /-- Its own token has been fired with the one that it was given, or because it is over. -/
  own : w.isFired (.own n) = true ↔ request.isCalledOff w.fired = true ∨ w.outcomeAt? n ≠ none
  /-- It is called off only if a caller fired the one that it was given. -/
  cancelled : w.outcomeAt? n = some ⟨kind, .error .cancelled⟩ → request.isCalledOff w.fired = true
  /-- If it goes on, whoever fires that one calls it off. -/
  calledOff : ∀ token, request.token = some token → w.outcomeAt? n = none →
    (w.act (.happen (.fire token))).settle.outcomeAt? n = some ⟨kind, .error .cancelled⟩

/-- How a wait fares among others: `n` is its number in the world `w`, and in the world `sole` it is
the only one, without any feeds. -/
structure FaresAlone (w sole : World) (n : Nat) : Prop where
  /-- It has got as far as it would if it were the only one. If it is over, it has the same outcome
  and ended at the same time. -/
  wait : w.waitAt? n = sole.waitAt? 0
  /-- The client, the endpoint, the clock and the tokens of callers are as they would be. -/
  around : w.deserted = sole.deserted

/-- Waits and feeds do not disturb each other, whatever happens in a world and in whatever order. -/
structure Undisturbed (w : World) (moves : List Move) : Prop where
  /-- The token of a caller is fired by callers, and by nothing that becomes of a wait or a feed. -/
  tokens : ∀ token, (w.play moves).isFired (.given token) = true ↔
    w.isFired (.given token) = true ∨ .happen (.fire token) ∈ moves
  /-- No wait that starts ends with a token but by that which it was given. -/
  heeds : ∀ before id kind request timeout after,
    moves = before ++ .happen (.wait id kind request timeout) :: after →
    (w.play moves).HeedsToken (w.play before).waits.length request
  /-- Each wait that starts, and that has nothing left to do whenever time begins to pass, fares as
  if it were the only one, without any feeds. -/
  waits : ∀ before id kind request timeout after,
    moves = before ++ .happen (.wait id kind request timeout) :: after →
    ((w.play before).startWait id kind request timeout).Paced (w.play before).waits.length after →
    FaresAlone (w.play moves)
      (w.deserted.play (w.residues before ++ .happen (.wait id kind request timeout) ::
        ((w.play before).startWait id kind request timeout).residues after))
      (w.play before).waits.length
  /-- The feeds fare as if there were no waits. -/
  feeds : (w.play moves).feeds =
    ({ w with waits := [] }.play (moves.map Move.withoutWait)).feeds

/-- A wait that goes on was given means and targets. -/
private theorem means_of_outcomeAt? {id : String} {request : WaitRequest kind.Record kind.Status}
    {timeout : Option UInt64} {moves : List Move}
    (h : ((w.startWait id kind request timeout).play moves).outcomeAt? w.waits.length = none) :
    w.client.canSubscribe = true ∧ request.targets ≠ [] := by
  have hnot {e : ClientError} (hturn : (w.client.wait w.now request timeout).turn w.surroundings =
      (w.refused request timeout e).wait) : False := by
    rw [outcomeAt?, waitAt?_of_refused w id request timeout hturn moves] at h
    cases h
  cases hcan : w.client.canSubscribe with
  | false => exact (hnot (turn_missing w request timeout hcan)).elim
  | true =>
    refine ⟨rfl, fun htargets => ?_⟩
    exact hnot (turn_emptyTargets w request timeout hcan htargets)

private theorem heedsToken_play (w : World) (id : String)
    (request : WaitRequest kind.Record kind.Status) (timeout : Option UInt64) (moves : List Move) :
    ((w.startWait id kind request timeout).play moves).HeedsToken w.waits.length request := by
  have hbegins := begins_startWait w id request timeout
  obtain ⟨wait, -, hwait, hrequest, -⟩ := hbegins.informed_play moves
  constructor
  case own =>
    have hown := isFired_own_iff hwait (hbegins.letsGo_play hwait)
    rwa [hrequest] at hown
  case cancelled =>
    intro hend
    obtain ⟨done, more, rfl, -, hdemands⟩ := exists_demands w id request timeout hend
    cases hdemands with
    | token hfired =>
      rw [play_append]
      exact isCalledOff_play hfired more
  case calledOff =>
    intro token htoken hopen
    obtain ⟨hcan, htargets⟩ := means_of_outcomeAt? hopen
    rw [← play_concat]
    have hfire : (((w.startWait id kind request timeout).play moves).act
        (.happen (.fire token))).outcomeAt? w.waits.length = none := hopen
    rw [← play_concat] at hfire
    have hfired : request.isCalledOff ((w.startWait id kind request timeout).play
        (moves ++ [.happen (.fire token)])).fired = true := by
      rw [play_concat, fired_act, WaitRequest.isCalledOff, htoken]
      simp [Move.fires]
    have hcalled := hbegins.calledOff_play ((client_startWait w id request timeout).symm ▸ hcan)
      htargets hfire hfired []
    rw [List.append_nil] at hcalled
    exact hcalled.2

private theorem waitAt?_of_keep {n : Nat} (h : w.keep (some n) = w') :
    w.waitAt? n = w'.waitAt? 0 := by
  rw [← h, waitAt?, waitAt?, keep, Option.bind_some]
  cases w.waits.reverse[n]? <;> rfl

private theorem faresAlone_play (w : World) (before : List Move) (id : String)
    (request : WaitRequest kind.Record kind.Status) (timeout : Option UInt64) (after : List Move)
    (hpaced : ((w.play before).startWait id kind request timeout).Paced
      (w.play before).waits.length after) :
    FaresAlone (w.play (before ++ .happen (.wait id kind request timeout) :: after))
      (w.deserted.play (w.residues before ++ .happen (.wait id kind request timeout) ::
        ((w.play before).startWait id kind request timeout).residues after))
      (w.play before).waits.length := by
  have hkeep := keep_play_wait w before id kind request timeout after hpaced
  have haround := congrArg deserted hkeep
  exact ⟨waitAt?_of_keep hkeep, haround⟩

theorem undisturbed_play (w : World) (moves : List Move) : w.Undisturbed moves where
  tokens _ := isFired_given_play_iff
  heeds := by
    rintro before id kind request timeout after rfl
    rw [play_append, play_cons]
    exact heedsToken_play (w.play before) id request timeout after
  waits := by
    rintro before id kind request timeout after rfl hpaced
    exact faresAlone_play w before id request timeout after hpaced
  feeds := by
    refine feeds_play ?_ ?_ moves <;> rfl

/-- In a run, which does all background work after each happening, every wait fares as if it were
the only one. -/
theorem faresAlone_run (w : World) (before : List Happening) (id : String)
    (request : WaitRequest kind.Record kind.Status) (timeout : Option UInt64)
    (after : List Happening) :
    FaresAlone (w.run (before ++ .wait id kind request timeout :: after))
      (w.deserted.play (w.residues (before.flatMap fun h => [.happen h, .settle]) ++
        .happen (.wait id kind request timeout) ::
          ((w.run before).startWait id kind request timeout).residues
            (.settle :: after.flatMap fun h => [.happen h, .settle])))
      (w.run before).waits.length := by
  rw [run_eq_play, run_eq_play, List.flatMap_append]
  refine faresAlone_play w _ id request timeout _ ?_
  exact ⟨fun hsettle => (nomatch hsettle), paced_run (restsAt_settle _ _) after⟩

/-! ## Two waits with the same token -/

/-- Two waits are given the token 7, one of them for 5 milliseconds only. While both listen node 3
is stored, time passes, and then a caller fires the token. -/
def sharedToken : List Move :=
  [.happen (.wait "brief" .node twoNodesUntilFired (some 5)),
    .happen (.wait "long" .node twoNodesUntilFired none),
    .happen (.account ((NodeInfo.plain (.replicate 32 3) .disabled).storedAt (.replicate 32 13))),
    .settle, .happen (.time 10), .happen (.fire 7), .settle]

set_option maxRecDepth 10000 in
/-- The brief wait runs out of time and fires its own token, of which the long one does not hear: it
goes on until the caller fires the token of both. The brief one ends as it would alone. -/
theorem undisturbed_sharedToken :
    (oneNode.play (sharedToken.take 5)).outcomeAt? 0 =
      some ⟨.node, .error (.timeout 2 "Active")⟩ ∧
    (oneNode.play (sharedToken.take 5)).isFired (.own 0) = true ∧
    (oneNode.play (sharedToken.take 5)).isFired (.given 7) = false ∧
    (oneNode.play (sharedToken.take 5)).isFired (.own 1) = false ∧
    (oneNode.play sharedToken).outcomeAt? 1 = some ⟨.node, .error .cancelled⟩ ∧
    FaresAlone (oneNode.play sharedToken)
      (oneNode.deserted.play (.happen (.wait "brief" .node twoNodesUntilFired (some 5)) ::
        .settle :: sharedToken.drop 2)) 0 := by
  have hpaced : (oneNode.startWait "brief" .node twoNodesUntilFired (some 5)).Paced 0
      (sharedToken.drop 1) :=
    paced_flatMap (oneNode.startWait "brief" .node twoNodesUntilFired (some 5)) 0
      [.happen (.wait "long" .node twoNodesUntilFired none),
        .happen (.account
          ((NodeInfo.plain (.replicate 32 3) .disabled).storedAt (.replicate 32 13))),
        .happen (.time 10), .happen (.fire 7), .settle]
  have hfares := (undisturbed_play oneNode sharedToken).waits [] "brief" .node twoNodesUntilFired
    (some 5) (sharedToken.drop 1) rfl hpaced
  exact ⟨by decide +kernel, by decide +kernel, by decide +kernel, by decide +kernel,
    by decide +kernel, hfares⟩

end World

end ComputeNet
