import ComputeNet.Proofs.Wait.Overlooked
import ComputeNet.Proofs.Wait.Failures

/-!
# The streams that waits open

A wait opens one stream at most, and the end of the wait, whatever it is, lets go of it (`Opens`).
It opens none if its listing is enough, or if it ends before its call for the stream is answered
(`NotBefore`), or once its token was fired (`opened_poll_of_isCalledOff`).
-/

namespace ComputeNet

/-- The errors with which a wait may end after its stream was opened. -/
inductive ClientError.Interrupts : ClientError → Prop
  | cancelled : Interrupts .cancelled
  | timeout (expected : Nat) (status : String) : Interrupts (.timeout expected status)
  | streamEnded (status : String) : Interrupts (.streamEnded status)

/-- A phase and a stream that agree with the number of streams that were opened. -/
inductive Opens {α : Type} : WaitPhase α → Option AccountStream → Nat → Prop
  | starting : Opens .starting none 0
  | listing (endsAt : Nat) : Opens (.listing endsAt) none 0
  | subscribing (opensAt : Nat) (filters : List Filter) (found : Found α) :
      Opens (.subscribing opensAt filters found) none 0
  | listening (found : Found α) (stream : AccountStream) :
      Opens (.listening found) (some stream) 1
  /-- The wait ended before it had a stream. -/
  | unopened (outcome : Except ClientError (Found α)) (time : Nat) :
      Opens (.finished outcome time) none 0
  | opened {outcome : Except ClientError (Found α)} (time : Nat)
      (hcause : ∀ e, outcome = .error e → e.Interrupts) : Opens (.finished outcome time) none 1

/-- If the endpoint answers the listing, the answer is enough. -/
def WaitRequest.ListedAt {α σ : Type} [Enumeration σ] [DecidableEq σ] (r : WaitRequest α σ)
    (e : Endpoint) : Prop :=
  ∀ accounts, e.listing r.filters = .ok accounts → r.isComplete (r.lookAll accounts) = true

theorem WaitRequest.listedAt_of_enough {α σ : Type} [Enumeration σ] [DecidableEq σ]
    {r : WaitRequest α σ} {e : Endpoint} {accounts : List RawAccount}
    (hlisting : e.listing r.filters = .ok accounts)
    (henough : r.Enough (r.sightings (accounts.map RawAccount.change))) : r.ListedAt e := by
  intro accounts' hlisting'
  cases hlisting.symm.trans hlisting'
  rw [lookAll_eq]
  exact (r.isComplete_foundIn_iff _).mpr henough

namespace Wait

variable {α σ : Type} {w : Wait α σ} {s : Surroundings}

/-- The time at which the listing of the wait ends, while it goes on. -/
def listsUntil? (w : Wait α σ) : Option Nat :=
  match w.phase with
  | .listing endsAt => some endsAt
  | _ => none

/-- The time at which the call of the wait for a stream is answered, while it goes on. -/
def callsUntil? (w : Wait α σ) : Option Nat :=
  match w.phase with
  | .subscribing opensAt _ _ => some opensAt
  | _ => none

/-- The time at which the wait ended, if it is over. -/
def endedAt? (w : Wait α σ) : Option Nat :=
  match w.phase with
  | .finished _ time => some time
  | _ => none

@[simp] theorem endedAt?_letGo (w : Wait α σ) : w.letGo.endedAt? = w.endedAt? := by
  rw [endedAt?, endedAt?, letGo_phase]

theorem stage_of_callsUntil? {opensAt : Nat} (h : w.callsUntil? = some opensAt) :
    w.stage ≠ .listing := by
  rw [callsUntil?] at h
  rw [stage]
  split at h
  next hphase => simp [hphase]
  next => cases h

/-- The wait agrees with the number of streams that it has opened. -/
def Opens (w : Wait α σ) : Prop := ComputeNet.Opens w.phase w.stream w.opened

/-- The end of a wait lets go of its stream. -/
theorem Opens.finish (h : w.Opens) (s : Surroundings) {outcome : Except ClientError (Found α)}
    (hcause : ∀ e, outcome = .error e → e.Interrupts) : (w.finish s outcome).Opens := by
  obtain ⟨request, deadline, phase, stream, opened, ownFired⟩ := w
  cases h with
  | starting | listing | subscribing | unopened => exact .unopened outcome s.now
  | listening | opened => exact .opened s.now hcause

theorem Opens.begin (h : w.Opens) (s : Surroundings) : (w.begin s).Opens := by
  obtain ⟨request, deadline, phase, stream, opened, ownFired⟩ := w
  have hself := h
  cases h with
  | starting =>
    simp only [Wait.begin]
    split
    · exact .unopened ..
    · split
      · exact .unopened ..
      · exact .listing _
  | _ => exact hself

theorem Opens.heed (h : w.Opens) (s : Surroundings) : (w.heed s).Opens := by
  rw [Wait.heed]
  split
  · refine h.finish s ?_
    rintro _ ⟨⟩
    exact .cancelled
  · exact h

theorem Opens.subscribe (h : w.Opens) (s : Surroundings) : (w.subscribe s).Opens := by
  obtain ⟨request, deadline, phase, stream, opened, ownFired⟩ := w
  have hself := h
  cases h with
  | subscribing =>
    simp only [Wait.subscribe]
    split
    · exact .subscribing ..
    · exact .listening ..
  | _ => exact hself

theorem Opens.undergo (h : w.Opens) (m : Move) : (w.undergo m).Opens := by
  cases m with
  | settle => exact h
  | happen happening =>
    obtain ⟨request, deadline, phase, stream, opened, ownFired⟩ := w
    cases happening with
    | account | streamsClose =>
      have hself := h
      cases h with
      | listening => exact .listening ..
      | _ => exact hself
    | _ => exact h

theorem Opens.le_one (h : w.Opens) : w.opened ≤ 1 := by
  obtain ⟨request, deadline, phase, stream, opened, ownFired⟩ := w
  cases h with
  | listening | opened => exact Nat.le_refl 1
  | _ => exact Nat.zero_le 1

/-- A wait that failed before its stream could be opened has opened none. -/
theorem Opens.opened_of_error (h : w.Opens) {e : ClientError} (hend : w.outcome? = some (.error e))
    (hearly : ¬ e.Interrupts) : w.opened = 0 := by
  obtain ⟨request, deadline, phase, stream, opened, ownFired⟩ := w
  cases h with
  | unopened => rfl
  | opened time hcause =>
    cases hend
    exact absurd (hcause e rfl) hearly
  | _ => cases hend

/-- A wait that goes on has opened its stream if it listens. -/
theorem Opens.opened_of_stage (h : w.Opens) (hgoes : w.stage ≠ .finished) :
    w.opened = if w.stage = .listening then 1 else 0 := by
  obtain ⟨request, deadline, phase, stream, opened, ownFired⟩ := w
  cases h with
  | unopened | opened => exact absurd rfl hgoes
  | _ => rfl

theorem Opens.stream_eq_none (h : w.Opens) {outcome : Except ClientError (Found α)}
    (hend : w.outcome? = some outcome) : w.stream = none := by
  obtain ⟨request, deadline, phase, stream, opened, ownFired⟩ := w
  cases h with
  | unopened | opened => rfl
  | _ => cases hend

variable [Enumeration σ]

theorem Opens.expire (h : w.Opens) (s : Surroundings) : (w.expire s).Opens := by
  rw [Wait.expire]
  split
  · refine h.finish s ?_
    rintro _ ⟨⟩
    exact .timeout ..
  · exact h

variable [DecidableEq σ]

theorem Opens.list (h : w.Opens) (s : Surroundings) : (w.list s).Opens := by
  obtain ⟨request, deadline, phase, stream, opened, ownFired⟩ := w
  have hself := h
  cases h with
  | listing =>
    simp only [Wait.list]
    split
    · exact .listing _
    · split
      · exact .unopened ..
      · split
        · exact .unopened ..
        · split
          · exact .unopened ..
          · exact .subscribing ..
  | _ => exact hself

theorem Opens.listen (h : w.Opens) (s : Surroundings) : (w.listen s).Opens := by
  obtain ⟨request, deadline, phase, stream, opened, ownFired⟩ := w
  have hself := h
  cases h with
  | listening found stream =>
    simp only [Wait.listen]
    split
    · exact .opened s.now (by rintro _ ⟨⟩)
    · split
      · refine .opened s.now ?_
        rintro _ ⟨⟩
        exact .streamEnded _
      · exact .listening ..
  | _ => exact hself

theorem Opens.poll (h : w.Opens) (s : Surroundings) : (w.poll s).Opens :=
  (((((h.begin s).heed s).list s).subscribe s).listen s).expire s

theorem Opens.turn (h : w.Opens) (s : Surroundings) : (w.turn s).Opens := by
  rw [Opens, Wait.turn, letGo_phase, letGo_stream, letGo_opened]
  exact h.poll s

/-- With nothing left to do, the waits that have a stream which the endpoint has not ended are those
that have opened one and are not over. -/
theorem Opens.isStreaming_turn (h : w.Opens) (s : Surroundings) :
    (w.turn s).isStreaming = (!(w.turn s).isFinished && (w.turn s).opened == 1) := by
  have hopens := h.turn s
  have hquiet (stream : AccountStream) (hstage : (w.turn s).stage = .listening)
      (hstream : (w.turn s).stream = some stream) : stream.closed = false :=
    (turn_quiet s w hstage hstream).2
  generalize w.turn s = w' at hopens hquiet
  obtain ⟨request, deadline, phase, stream, opened, ownFired⟩ := w'
  cases hopens with
  | listening found stream =>
    simp [isStreaming, isFinished, hquiet stream rfl rfl]
  | _ => rfl

/-! ## Waits that are called off -/

omit [Enumeration σ] [DecidableEq σ] in
theorem opened_undergo (w : Wait α σ) (m : Move) : (w.undergo m).opened = w.opened := by
  cases m with
  | settle => rfl
  | happen h => cases h <;> rfl

/-- Once its token was fired, a wait opens no stream when it is polled, and is over then. -/
theorem opened_poll_of_isCalledOff (hfired : w.isCalledOff s.fired = true) :
    (w.poll s).opened = w.opened ∧ ∃ outcome, (w.poll s).outcome? = some outcome := by
  have hopened : (w.begin s).opened = w.opened := by
    rw [begin]
    split
    · split
      · rfl
      · split <;> rfl
    · rfl
  cases hbegin : (w.begin s).outcome? with
  | some outcome =>
    rw [poll_eq_begin rfl hbegin]
    exact ⟨hopened, outcome, hbegin⟩
  | none =>
    have hheed : ((w.begin s).heed s).outcome? = some (.error .cancelled) := by
      rw [outcome?_heed hbegin, isCalledOff_begin, if_pos hfired]
    have hkept : ((w.begin s).heed s).opened = (w.begin s).opened := by
      rw [heed]
      split <;> rfl
    rw [poll_eq_heed rfl hheed]
    exact ⟨hkept.trans hopened, _, hheed⟩

theorem opened_pollAll_of_isCalledOff {polls : List Surroundings}
    (hfired : ∀ s ∈ polls, w.request.isCalledOff s.fired = true) :
    (w.pollAll polls).opened = w.opened := by
  cases polls with
  | nil => rfl
  | cons s polls =>
    obtain ⟨hopened, outcome, hend⟩ :=
      opened_poll_of_isCalledOff (isCalledOff_of_request (hfired s List.mem_cons_self))
    have hall : w.pollAll (s :: polls) = w.turn s := pollAll_letGo hend polls
    rw [hall, turn, letGo_opened, hopened]

/-! ## Waits that have to wait for their stream -/

/-- The wait opens no stream before a time, as long as the endpoint stays as it is until it has
answered the listing: the answer is enough, or the call for the stream takes until then. -/
def NotBefore (e : Endpoint) (time now : Nat) (w : Wait α σ) : Prop :=
  match w.phase with
  | .starting => w.opened = 0 ∧
      (w.request.ListedAt e ∨ time ≤ now + e.listingDelay + e.subscribeDelay)
  | .listing endsAt => w.opened = 0 ∧ (w.request.ListedAt e ∨ time ≤ endsAt + e.subscribeDelay)
  | .subscribing opensAt _ _ => w.opened = 0 ∧ time ≤ opensAt
  | .listening _ => time ≤ now
  | .finished _ ended => w.opened = 0 ∨ time ≤ ended

namespace NotBefore

variable {e : Endpoint} {time now : Nat}

/-- Time may pass before the wait is polled. -/
theorem mono (h : w.NotBefore e time now) {later : Nat} (hle : now ≤ later) :
    w.NotBefore e time later := by
  unfold NotBefore at h ⊢
  split <;> simp only [*] at h ⊢
  · exact ⟨h.1, h.2.imp_right fun hbound => by omega⟩
  · exact h
  · exact h
  · exact Nat.le_trans h hle
  · exact h

/-- To end a wait that goes on opens no stream. -/
theorem finish (h : w.NotBefore e time s.now) (hopen : w.outcome? = none)
    (outcome : Except ClientError (Found α)) : (w.finish s outcome).NotBefore e time s.now := by
  obtain ⟨request, deadline, phase, stream, opened, ownFired⟩ := w
  cases phase with
  | starting | listing | subscribing => exact Or.inl h.1
  | listening => exact Or.inr h
  | finished => cases hopen

theorem begin (h : w.NotBefore s.endpoint time s.now) :
    (w.begin s).NotBefore s.endpoint time s.now := by
  obtain ⟨request, deadline, phase, stream, opened, ownFired⟩ := w
  cases phase with
  | starting =>
    simp only [Wait.begin]
    split
    · exact h.finish rfl _
    · split
      · exact h.finish rfl _
      · exact h
  | _ => exact h

theorem heed (h : w.NotBefore e time s.now) : (w.heed s).NotBefore e time s.now := by
  rw [Wait.heed]
  split
  next hmore =>
    have hopen := (Bool.and_eq_true_iff.mp hmore).1
    rw [isFinished_eq_isSome] at hopen
    exact h.finish (by simpa using hopen) _
  · exact h

theorem expire (h : w.NotBefore e time s.now) : (w.expire s).NotBefore e time s.now := by
  rw [Wait.expire]
  split
  next hmore =>
    have hopen := (Bool.and_eq_true_iff.mp hmore).1
    rw [isFinished_eq_isSome] at hopen
    exact h.finish (by simpa using hopen) _
  · exact h

/-- At the end of its listing a wait is over if it was enough, and else its call for a stream takes
some time. -/
theorem list (h : w.NotBefore s.endpoint time s.now) :
    (w.list s).NotBefore s.endpoint time s.now := by
  obtain ⟨request, deadline, phase, stream, opened, ownFired⟩ := w
  cases phase with
  | listing endsAt =>
    obtain ⟨hopened, hcause⟩ := h
    simp only [Wait.list]
    split
    · exact ⟨hopened, hcause⟩
    next hends =>
      cases hlisting : s.endpoint.listing request.filters with
      | error e => exact Or.inl hopened
      | ok accounts =>
        cases hcomplete : request.isComplete (request.lookAll accounts) with
        | true =>
          simp only [hcomplete, if_true]
          exact Or.inl hopened
        | false =>
          simp only [hcomplete, Bool.false_eq_true, if_false]
          have hbound := hcause.resolve_left fun hlisted => by
            rw [hlisted accounts hlisting] at hcomplete
            cases hcomplete
          cases s.endpoint.serve .programSubscribe with
          | error e => exact Or.inl hopened
          | ok => exact ⟨hopened, by omega⟩
  | _ => exact h

theorem subscribe (h : w.NotBefore e time s.now) : (w.subscribe s).NotBefore e time s.now := by
  obtain ⟨request, deadline, phase, stream, opened, ownFired⟩ := w
  cases phase with
  | subscribing opensAt filters found =>
    simp only [Wait.subscribe]
    split
    · exact h
    next hopens => exact Nat.le_trans h.2 (Nat.not_lt.mp hopens)
  | _ => exact h

theorem listen (h : w.NotBefore e time s.now) : (w.listen s).NotBefore e time s.now := by
  obtain ⟨request, deadline, phase, stream, opened, ownFired⟩ := w
  cases phase with
  | listening found =>
    cases stream with
    | none => exact h
    | some stream =>
      simp only [Wait.listen]
      split
      · exact Or.inr h
      · split
        · exact Or.inr h
        · exact h
  | _ => exact h

theorem poll (h : w.NotBefore s.endpoint time now) (hle : now ≤ s.now) :
    (w.poll s).NotBefore s.endpoint time s.now :=
  (h.mono hle).begin.heed.list.subscribe.listen.expire

theorem turn (h : w.NotBefore s.endpoint time now) (hle : now ≤ s.now) :
    (w.turn s).NotBefore s.endpoint time s.now := by
  rw [Wait.turn, letGo]
  split <;> exact h.poll hle

theorem pollAll {polls : List Surroundings} {last : Nat}
    (hendpoint : ∀ s ∈ polls, s.endpoint = e) (hlast : ∀ s ∈ polls, s.now ≤ last)
    (hsorted : (now :: polls.map (·.now)).Pairwise (· ≤ ·)) (hle : now ≤ last)
    (h : w.NotBefore e time now) : (w.pollAll polls).NotBefore e time last := by
  induction polls generalizing w now with
  | nil => exact h.mono hle
  | cons s polls ih =>
    obtain ⟨hs, hpolls⟩ := List.forall_mem_cons.mp hendpoint
    obtain ⟨hslast, hpollslast⟩ := List.forall_mem_cons.mp hlast
    obtain ⟨hfirst, hrest⟩ := List.pairwise_cons.mp hsorted
    subst hs
    exact ih hpolls hpollslast hrest hslast (h.turn (hfirst s.now List.mem_cons_self))

/-- Once the listing was answered, the endpoint has no part in it any more. -/
theorem of_stage_ne_listing (h : w.NotBefore e time now) (hstage : w.stage ≠ .listing)
    (e' : Endpoint) : w.NotBefore e' time now := by
  obtain ⟨request, deadline, phase, stream, opened, ownFired⟩ := w
  cases phase with
  | starting | listing => exact absurd rfl hstage
  | _ => exact h

/-- What happens to a stream opens none. -/
theorem undergo (h : w.NotBefore e time now) (m : Move) : (w.undergo m).NotBefore e time now := by
  cases m with
  | settle => exact h
  | happen happening => cases happening <;> exact h

/-- A wait that opens no stream before any time has not opened one. -/
theorem opened_eq_zero (h : ∀ time, w.NotBefore e time now) : w.opened = 0 := by
  obtain ⟨request, deadline, phase, stream, opened, ownFired⟩ := w
  cases phase with
  | starting | listing | subscribing => exact (h 0).1
  | listening => exact absurd (h (now + 1)) (Nat.not_succ_le_self now)
  | finished outcome ended => exact (h (ended + 1)).resolve_right (Nat.not_succ_le_self ended)

theorem opened_of_endedAt? (h : w.NotBefore e time now) {ended : Nat}
    (hend : w.endedAt? = some ended) (hlt : ended < time) : w.opened = 0 := by
  obtain ⟨request, deadline, phase, stream, opened, ownFired⟩ := w
  cases phase with
  | finished =>
    cases hend
    exact h.resolve_right (Nat.not_le.mpr hlt)
  | _ => cases hend

end NotBefore

section Opens

variable (h : w.Opens) (e : Endpoint) (now : Nat)

include h

/-- A wait whose listing is answered with enough opens no stream. -/
theorem Opens.notBefore_of_listedAt (hstage : w.stage = .listing)
    (hlisted : w.request.ListedAt e) (time : Nat) : w.NotBefore e time now := by
  obtain ⟨request, deadline, phase, stream, opened, ownFired⟩ := w
  cases h with
  | starting | listing => exact ⟨rfl, Or.inl hlisted⟩
  | _ => cases hstage

theorem Opens.notBefore_of_listsUntil? {endsAt : Nat} (hlists : w.listsUntil? = some endsAt) :
    w.NotBefore e (endsAt + e.subscribeDelay) now := by
  obtain ⟨request, deadline, phase, stream, opened, ownFired⟩ := w
  cases h with
  | listing =>
    cases hlists
    exact ⟨rfl, Or.inr (Nat.le_refl _)⟩
  | _ => cases hlists

theorem Opens.notBefore_of_callsUntil? {opensAt : Nat} (hcalls : w.callsUntil? = some opensAt) :
    w.NotBefore e opensAt now := by
  obtain ⟨request, deadline, phase, stream, opened, ownFired⟩ := w
  cases h with
  | subscribing =>
    cases hcalls
    exact ⟨rfl, Nat.le_refl _⟩
  | _ => cases hcalls

end Opens

end Wait

end ComputeNet
