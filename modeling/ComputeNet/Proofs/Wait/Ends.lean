import ComputeNet.Proofs.Wait.Course

/-!
# How waits end

A poll gives way to a fired token before it does anything but look at the means and the targets of
the wait. So an error with which it ends a wait has one cause (`fails_of_poll`), and a wait that is
over stays as it is (`pollAll_eq_self`).
-/

namespace ComputeNet

namespace Wait

variable {α σ : Type} {w : Wait α σ} {s : Surroundings}

theorem outcome?_eq_none_iff : w.outcome? = none ↔ w.stage ≠ .finished := by
  rw [outcome?, stage]
  cases w.phase <;> simp

theorem phase_of_outcome? {outcome : Except ClientError (Found α)} (h : w.outcome? = some outcome) :
    ∃ time, w.phase = .finished outcome time := by
  rw [outcome?] at h
  split at h
  next outcome' time hphase =>
    cases h
    exact ⟨time, hphase⟩
  · cases h

/-! ## The first steps of a poll -/

private theorem outcome?_begin (h : w.outcome? = none) {outcome : Except ClientError (Found α)}
    (hend : (w.begin s).outcome? = some outcome) :
    w.phase = .starting ∧ (s.canSubscribe = false ∧
        outcome = .error .missingSubscriptionTransport ∨
      s.canSubscribe = true ∧ w.request.targets = [] ∧ outcome = .error .emptyTargets) := by
  obtain ⟨request, deadline, phase, stream, opened, ownFired⟩ := w
  cases phase with
  | starting =>
    refine ⟨rfl, ?_⟩
    simp only [begin] at hend
    cases hcan : s.canSubscribe with
    | false =>
      simp only [hcan] at hend
      cases hend
      exact Or.inl ⟨rfl, rfl⟩
    | true =>
      cases htargets : request.targets with
      | nil =>
        simp only [hcan, htargets] at hend
        cases hend
        exact Or.inr ⟨rfl, rfl, rfl⟩
      | cons key keys =>
        simp only [hcan, htargets] at hend
        cases hend
  | finished => cases h
  | _ => cases hend

theorem outcome?_heed (h : w.outcome? = none) (s : Surroundings) :
    (w.heed s).outcome? =
      if w.isCalledOff s.fired then some (.error .cancelled) else none := by
  rw [heed, isFinished_eq_isSome, h]
  cases w.isCalledOff s.fired with
  | true => rfl
  | false => exact h

theorem heed_eq_self (h : w.isCalledOff s.fired = false) : w.heed s = w := by
  simp [heed, h]

theorem isCalledOff_begin (w : Wait α σ) (s : Surroundings) (fired : List Token) :
    (w.begin s).isCalledOff fired = w.isCalledOff fired := by
  rw [begin]
  split
  · split
    · rfl
    · split <;> rfl
  · rfl

/-- Whoever fires the token that a wait was given calls it off. -/
theorem isCalledOff_of_request {fired : List Token} (h : w.request.isCalledOff fired = true) :
    w.isCalledOff fired = true := by
  rw [isCalledOff, h, Bool.or_true]

private theorem outcome?_subscribe (w : Wait α σ) (s : Surroundings) :
    (w.subscribe s).outcome? = w.outcome? := by
  obtain ⟨request, deadline, phase, stream, opened, ownFired⟩ := w
  cases phase with
  | subscribing opensAt filters found =>
    simp only [subscribe]
    split <;> rfl
  | _ => rfl

private theorem begin_eq_self {found : Found α} (h : (w.begin s).phase = .listening found) :
    w.begin s = w := by
  obtain ⟨request, deadline, phase, stream, opened, ownFired⟩ := w
  cases phase with
  | starting =>
    simp only [begin] at h
    split at h
    · cases h
    · split at h <;> cases h
  | _ => rfl

private theorem subscribe_eq_self {stream : AccountStream}
    (hstream : (w.subscribe s).stream = some stream)
    (hclosed : stream.closed = true) : w.subscribe s = w := by
  obtain ⟨request, deadline, phase, stream', opened, ownFired⟩ := w
  cases phase with
  | subscribing opensAt filters found =>
    simp only [subscribe] at hstream ⊢
    split
    · rfl
    next hlt =>
      rw [if_neg hlt] at hstream
      cases hstream
      cases hclosed
  | _ => rfl

/-! ## What polls leave alone -/

/-- What no part of a poll changes: the deadline, and which streams the endpoint has ended. -/
structure Keeps (w w' : Wait α σ) : Prop where
  deadline : w'.deadline = w.deadline
  closed : ∀ stream', w'.stream = some stream' → stream'.closed = true →
    ∃ stream, w.stream = some stream ∧ stream.closed = true

namespace Keeps

variable {w' w'' : Wait α σ}

theorem refl (w : Wait α σ) : w.Keeps w := ⟨rfl, fun stream hstream h => ⟨stream, hstream, h⟩⟩

theorem trans (h : w.Keeps w') (h' : w'.Keeps w'') : w.Keeps w'' := by
  refine ⟨h'.deadline.trans h.deadline, ?_⟩
  intro stream'' hstream'' hclosed''
  obtain ⟨stream', hstream', hclosed'⟩ := h'.closed stream'' hstream'' hclosed''
  exact h.closed stream' hstream' hclosed'

theorem finish (w : Wait α σ) (s : Surroundings) (outcome : Except ClientError (Found α)) :
    w.Keeps (w.finish s outcome) :=
  ⟨rfl, fun _ hstream => nomatch hstream⟩

end Keeps

private theorem keeps_begin (s : Surroundings) (w : Wait α σ) : w.Keeps (w.begin s) := by
  rw [begin]
  split
  · split
    · exact .finish ..
    · split
      · exact .finish ..
      · exact ⟨rfl, fun stream hstream h => ⟨stream, hstream, h⟩⟩
  · exact .refl w

private theorem keeps_heed (s : Surroundings) (w : Wait α σ) : w.Keeps (w.heed s) := by
  rw [heed]
  split
  · exact .finish ..
  · exact .refl w

private theorem keeps_subscribe (s : Surroundings) (w : Wait α σ) : w.Keeps (w.subscribe s) := by
  rw [subscribe]
  split
  · split
    · exact .refl w
    · refine ⟨rfl, ?_⟩
      rintro stream' ⟨⟩ ⟨⟩
  · exact .refl w

variable [Enumeration σ]

private theorem keeps_expire (s : Surroundings) (w : Wait α σ) : w.Keeps (w.expire s) := by
  rw [expire]
  split
  · exact .finish ..
  · exact .refl w

variable [DecidableEq σ]

private theorem keeps_list (s : Surroundings) (w : Wait α σ) : w.Keeps (w.list s) := by
  rw [list]
  split
  · split
    · exact .refl w
    · split
      · exact .finish ..
      · dsimp only
        split
        · exact .finish ..
        · split
          · exact .finish ..
          · exact ⟨rfl, fun stream hstream h => ⟨stream, hstream, h⟩⟩
  · exact .refl w

private theorem keeps_listen (s : Surroundings) (w : Wait α σ) : w.Keeps (w.listen s) := by
  rw [listen]
  split
  next found stream hphase hstream =>
    dsimp only
    split
    · exact .finish ..
    · split
      · exact .finish ..
      next hclosed =>
        refine ⟨rfl, ?_⟩
        rintro stream' ⟨⟩ hclosed'
        exact absurd hclosed' hclosed
  · exact .refl w

theorem keeps_work (s : Surroundings) (w : Wait α σ) : w.Keeps (w.work s) :=
  ((((keeps_begin s w).trans (keeps_heed s _)).trans (keeps_list s _)).trans
    (keeps_subscribe s _)).trans (keeps_listen s _)

theorem keeps_poll (s : Surroundings) (w : Wait α σ) : w.Keeps (w.poll s) :=
  (keeps_work s w).trans (keeps_expire s _)

theorem keeps_turn (s : Surroundings) (w : Wait α σ) : w.Keeps (w.turn s) := by
  refine (keeps_poll s w).trans ⟨letGo_deadline _, ?_⟩
  intro stream hstream hclosed
  exact ⟨stream, letGo_stream (w.poll s) ▸ hstream, hclosed⟩

theorem keeps_pollAll (polls : List Surroundings) (w : Wait α σ) : w.Keeps (w.pollAll polls) := by
  induction polls generalizing w with
  | nil => exact .refl w
  | cons s polls ih => exact (keeps_turn s w).trans (ih (w.turn s))

/-! ## Errors of the further steps -/

omit [DecidableEq σ] in
private theorem outcome?_expire (h : w.outcome? = none) {outcome : Except ClientError (Found α)}
    (hend : (w.expire s).outcome? = some outcome) :
    (∃ time, w.deadline = some time ∧ time ≤ s.now) ∧
      outcome = .error (.timeout w.request.expected (Enumeration.name w.request.status)) := by
  rw [expire, isFinished_eq_isSome, h] at hend
  by_cases hdue : w.deadline.any (· ≤ s.now) = true
  · simp only [hdue] at hend
    cases hend
    obtain ⟨time, htime, hle⟩ := (Option.any_eq_true ..).mp hdue
    exact ⟨⟨time, htime, of_decide_eq_true hle⟩, rfl⟩
  · simp only [hdue] at hend
    exact absurd (h.symm.trans hend) (by simp)

private theorem outcome?_list (h : w.outcome? = none) {e : ClientError}
    (hend : (w.list s).outcome? = some (.error e)) :
    s.endpoint.listing w.request.filters = .error e ∨
      ∃ accounts, s.endpoint.listing w.request.filters = .ok accounts ∧
        w.request.isComplete (w.request.lookAll accounts) = false ∧
        s.endpoint.serve .programSubscribe = .error e := by
  obtain ⟨request, deadline, phase, stream, opened, ownFired⟩ := w
  cases phase with
  | listing endsAt =>
    simp only [list] at hend
    split at hend
    · cases hend
    · cases hlisting : s.endpoint.listing request.filters with
      | error e' =>
        simp only [hlisting] at hend
        cases hend
        exact Or.inl rfl
      | ok accounts =>
        simp only [hlisting] at hend
        cases hcomplete : request.isComplete (request.lookAll accounts) with
        | true =>
          simp only [hcomplete] at hend
          cases hend
        | false =>
          simp only [hcomplete] at hend
          cases hserve : s.endpoint.serve .programSubscribe with
          | error e' =>
            simp only [hserve] at hend
            cases hend
            exact Or.inr ⟨accounts, rfl, hcomplete, rfl⟩
          | ok =>
            simp only [hserve] at hend
            cases hend
  | finished => cases h
  | _ => cases hend

private theorem outcome?_listen (h : w.outcome? = none) {e : ClientError}
    (hend : (w.listen s).outcome? = some (.error e)) :
    ∃ found stream, w.phase = .listening found ∧ w.stream = some stream ∧ stream.closed = true ∧
      (consume w.request found stream.pending).2 = false ∧
      e = .streamEnded (Enumeration.name w.request.status) := by
  obtain ⟨request, deadline, phase, stream, opened, ownFired⟩ := w
  cases phase with
  | listening found =>
    cases stream with
    | none => cases hend
    | some stream =>
      simp only [listen] at hend
      cases hconsume : (consume request found stream.pending).2 with
      | true =>
        simp only [hconsume] at hend
        cases hend
      | false =>
        simp only [hconsume] at hend
        cases hclosed : stream.closed with
        | true =>
          simp only [hclosed] at hend
          cases hend
          exact ⟨found, stream, rfl, rfl, hclosed, hconsume, rfl⟩
        | false =>
          simp only [hclosed] at hend
          cases hend
  | finished => cases h
  | _ => cases hend

private theorem list_eq_self_of_listening {found : Found α}
    (h : (w.list s).phase = .listening found) : w.list s = w := by
  obtain ⟨request, deadline, phase, stream, opened, ownFired⟩ := w
  cases phase with
  | listing endsAt =>
    simp only [list] at h
    split at h
    · cases h
    · split at h
      · cases h
      · split at h
        · cases h
        · split at h <;> cases h
  | _ => rfl

/-! ## Whole polls -/

section

variable {outcome : Except ClientError (Found α)} (h : w.outcome? = some outcome)
  (s : Surroundings)

include h

private theorem list_eq_self : w.list s = w := by
  obtain ⟨time, hphase⟩ := phase_of_outcome? h
  rw [list, hphase]

private theorem listen_eq_self : w.listen s = w := by
  obtain ⟨time, hphase⟩ := phase_of_outcome? h
  rw [listen, hphase]

omit [DecidableEq σ] in
theorem expire_eq_self : w.expire s = w := by
  rw [expire, isFinished_eq_isSome, h]
  rfl

/-- After its listing, a wait that is over is left as it is. -/
theorem after_list_eq_self : ((w.subscribe s).listen s).expire s = w := by
  have hsubscribe : w.subscribe s = w := by
    obtain ⟨time, hphase⟩ := phase_of_outcome? h
    rw [subscribe, hphase]
  rw [hsubscribe, listen_eq_self h, expire_eq_self h]

end

/-- A poll that ends the wait before its listing leaves it as it is then. -/
theorem poll_eq_heed {w' : Wait α σ} (hheed : (w.begin s).heed s = w')
    {outcome : Except ClientError (Found α)} (h : w'.outcome? = some outcome) : w.poll s = w' := by
  rw [poll, hheed, list_eq_self h, after_list_eq_self h]

theorem poll_eq_begin {w' : Wait α σ} (hbegin : w.begin s = w')
    {outcome : Except ClientError (Found α)} (h : w'.outcome? = some outcome) : w.poll s = w' := by
  refine poll_eq_heed ?_ h
  rw [hbegin, heed, isFinished_eq_isSome, h]
  rfl

/-- A wait that is over is not polled any further. -/
theorem poll_eq_self {outcome : Except ClientError (Found α)} (h : w.outcome? = some outcome)
    (s : Surroundings) : w.poll s = w := by
  have hbegin : w.begin s = w := by
    obtain ⟨time, hphase⟩ := phase_of_outcome? h
    rw [begin, hphase]
  exact poll_eq_begin hbegin h

/-- After its last turn a wait is left as it is. -/
theorem pollAll_letGo {outcome : Except ClientError (Found α)} (h : w.outcome? = some outcome)
    (polls : List Surroundings) : w.letGo.pollAll polls = w.letGo := by
  have hover : w.isFinished = true := by
    rw [isFinished_eq_isSome, h]
    rfl
  induction polls with
  | nil => rfl
  | cons s polls ih =>
    have hcons : w.letGo.pollAll (s :: polls) = (w.letGo.turn s).pollAll polls := rfl
    have hturn : w.letGo.turn s = w.letGo := by
      rw [turn, poll_eq_self ((outcome?_letGo w).trans h), letGo, letGo, if_pos hover]
      exact if_pos hover
    rw [hcons, hturn, ih]

theorem pollAll_eq_self (hlets : w.LetsGo) {outcome : Except ClientError (Found α)}
    (h : w.outcome? = some outcome) (polls : List Surroundings) : w.pollAll polls = w := by
  rw [← hlets.letGo_eq_self]
  exact pollAll_letGo h polls

/-- A wait that is over after some polls was ended by one of them. -/
theorem exists_poll {outcome : Except ClientError (Found α)} {polls : List Surroundings}
    (h : w.outcome? = none) (hend : (w.pollAll polls).outcome? = some outcome) :
    ∃ before s after, polls = before ++ s :: after ∧ (w.pollAll before).outcome? = none ∧
      ((w.pollAll before).poll s).outcome? = some outcome := by
  induction polls generalizing w with
  | nil => exact absurd (h.symm.trans hend) (by simp)
  | cons s polls ih =>
    have hcons : w.pollAll (s :: polls) = (w.turn s).pollAll polls := rfl
    rw [hcons] at hend
    cases hpoll : (w.poll s).outcome? with
    | none =>
      obtain ⟨before, t, after, rfl, hbefore, hlast⟩ := ih ((outcome?_letGo _).trans hpoll) hend
      exact ⟨s :: before, t, after, rfl, hbefore, hlast⟩
    | some outcome' =>
      rw [turn, pollAll_letGo hpoll, outcome?_letGo, hpoll] at hend
      exact ⟨[], s, polls, rfl, h, hpoll.trans hend⟩

/-- The polls after the one that ends a wait let it be. -/
theorem pollAll_append_cons {outcome : Except ClientError (Found α)} {before : List Surroundings}
    (h : ((w.pollAll before).poll s).outcome? = some outcome) (after : List Surroundings) :
    w.pollAll (before ++ s :: after) = (w.pollAll before).turn s := by
  rw [pollAll, List.foldl_append, List.foldl_cons]
  exact pollAll_letGo h after

/-- A wait that has means and targets is called off by the first poll after its token was fired. -/
theorem outcome?_poll_of_isCalledOff (h : w.outcome? = none) (hcan : s.canSubscribe = true)
    (htargets : w.request.targets ≠ []) (hfired : w.isCalledOff s.fired = true) :
    (w.poll s).outcome? = some (.error .cancelled) := by
  have hbegin : (w.begin s).outcome? = none := by
    cases hend : (w.begin s).outcome? with
    | none => rfl
    | some outcome =>
      obtain ⟨-, ⟨hnot, -⟩ | ⟨-, hnil, -⟩⟩ := outcome?_begin h hend
      · exact absurd (hnot.symm.trans hcan) (by decide)
      · exact absurd hnil htargets
  have hheed : ((w.begin s).heed s).outcome? = some (.error .cancelled) := by
    rw [outcome?_heed hbegin, isCalledOff_begin, if_pos hfired]
  rw [poll_eq_heed rfl hheed, hheed]

/-! ## The causes of errors -/

/-- The causes for which a poll ends a wait with an error. -/
inductive Fails (w : Wait α σ) (s : Surroundings) : ClientError → Prop
  | means (hphase : w.phase = .starting) (hcan : s.canSubscribe = false) :
      Fails w s .missingSubscriptionTransport
  | targets (hphase : w.phase = .starting) (hcan : s.canSubscribe = true)
      (htargets : w.request.targets = []) : Fails w s .emptyTargets
  | token (hfired : w.isCalledOff s.fired = true) : Fails w s .cancelled
  /-- The listing failed. -/
  | listing {e : ClientError} (hquiet : w.isCalledOff s.fired = false)
      (hlisting : s.endpoint.listing w.request.filters = .error e) : Fails w s e
  /-- The listing was not enough, and the stream could not be opened. -/
  | subscribing {e : ClientError} {accounts : List RawAccount}
      (hquiet : w.isCalledOff s.fired = false)
      (hlisting : s.endpoint.listing w.request.filters = .ok accounts)
      (hmore : w.request.isComplete (w.request.lookAll accounts) = false)
      (hserve : s.endpoint.serve .programSubscribe = .error e) : Fails w s e
  /-- The stream has ended, and all that came was not enough. -/
  | stream {found : Found α} {stream : AccountStream}
      (hquiet : w.isCalledOff s.fired = false) (hphase : w.phase = .listening found)
      (hstream : w.stream = some stream) (hclosed : stream.closed = true)
      (hmore : (consume w.request found stream.pending).2 = false) :
      Fails w s (.streamEnded (Enumeration.name w.request.status))
  | deadline {time : Nat} (hquiet : w.isCalledOff s.fired = false)
      (htime : w.deadline = some time) (hle : time ≤ s.now) :
      Fails w s (.timeout w.request.expected (Enumeration.name w.request.status))

/-- A wait that looks at an ended stream had that stream before the poll. -/
private theorem eq_self_of_closed {found : Found α} {stream : AccountStream}
    (hphase : (((w.begin s).list s).subscribe s).phase = .listening found)
    (hstream : (((w.begin s).list s).subscribe s).stream = some stream)
    (hclosed : stream.closed = true) : ((w.begin s).list s).subscribe s = w := by
  have hsubscribe := subscribe_eq_self hstream hclosed
  rw [hsubscribe] at hphase ⊢
  have hlist := list_eq_self_of_listening hphase
  rw [hlist] at hphase ⊢
  exact begin_eq_self hphase

/-- An error with which a poll ends a wait has one of the causes. -/
theorem fails_of_poll (h : w.outcome? = none) {e : ClientError}
    (hend : (w.poll s).outcome? = some (.error e)) : w.Fails s e := by
  have hrequest := (follows_begin s w).request
  cases hbegin : (w.begin s).outcome? with
  | some outcome =>
    rw [poll_eq_begin rfl hbegin, hbegin, Option.some.injEq] at hend
    obtain ⟨hphase, ⟨hcan, herror⟩ | ⟨hcan, htargets, herror⟩⟩ := outcome?_begin h hbegin
    · cases hend.symm.trans herror
      exact .means hphase hcan
    · cases hend.symm.trans herror
      exact .targets hphase hcan htargets
  | none =>
    cases hquiet : w.isCalledOff s.fired with
    | true =>
      have hheed : ((w.begin s).heed s).outcome? = some (.error .cancelled) := by
        rw [outcome?_heed hbegin, isCalledOff_begin, if_pos hquiet]
      rw [poll_eq_heed rfl hheed, hheed] at hend
      cases hend
      exact .token hquiet
    | false =>
      rw [poll, heed_eq_self ((isCalledOff_begin w s s.fired).trans hquiet)] at hend
      cases hlist : ((w.begin s).list s).outcome? with
      | some outcome =>
        rw [after_list_eq_self hlist] at hend
        have hfails := outcome?_list hbegin hend
        rw [hrequest] at hfails
        rcases hfails with hlisting | ⟨accounts, hlisting, hmore, hserve⟩
        · exact .listing hquiet hlisting
        · exact .subscribing hquiet hlisting hmore hserve
      | none =>
        have hsubscribe := outcome?_subscribe ((w.begin s).list s) s
        rw [hlist] at hsubscribe
        cases hlisten : ((((w.begin s).list s).subscribe s).listen s).outcome? with
        | some outcome =>
          rw [expire_eq_self hlisten] at hend
          obtain ⟨found, stream, hphase, hstream, hclosed, hmore, rfl⟩ :=
            outcome?_listen hsubscribe hend
          have hself := eq_self_of_closed hphase hstream hclosed
          rw [hself] at hphase hstream hmore ⊢
          exact .stream hquiet hphase hstream hclosed hmore
        | none =>
          obtain ⟨⟨time, htime, hle⟩, herror⟩ := outcome?_expire hlisten hend
          cases herror
          have hkeeps := (((keeps_begin s w).trans (keeps_list s _)).trans
            (keeps_subscribe s _)).trans (keeps_listen s _)
          have hfollows := (((follows_begin s w).trans (follows_list s _)).trans
            (follows_subscribe s _)).trans (follows_listen s _)
          rw [hkeeps.deadline] at htime
          rw [hfollows.request]
          exact .deadline hquiet htime hle

end Wait

end ComputeNet
