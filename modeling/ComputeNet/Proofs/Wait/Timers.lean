import ComputeNet.Proofs.Wait.Streams

/-!
# The timers of a wait

A poll leaves nothing to do before the next timer of the wait: until then, further polls change
nothing (`Rests.poll_eq_self`). What a poll does before it looks at the deadline ends no wait for
lack of time, and leaves the end of a listing as it was fixed (`Works`).
-/

namespace ComputeNet.Wait

variable {α σ : Type} {w w' w'' : Wait α σ} {s : Surroundings}

/-- The wait has run out of time. -/
def isTimedOut (w : Wait α σ) : Bool :=
  match w.phase with
  | .finished (.error (.timeout ..)) _ => true
  | _ => false

theorem isTimedOut_of_outcome? {expected : Nat} {status : String}
    (h : w.outcome? = some (.error (.timeout expected status))) : w.isTimedOut = true := by
  obtain ⟨time, hphase⟩ := phase_of_outcome? h
  rw [isTimedOut, hphase]

private theorem endedAt?_eq_none_iff : w.endedAt? = none ↔ w.outcome? = none := by
  rw [endedAt?, outcome?]
  cases w.phase <;> simp

/-! ## What the parts of a poll have in common -/

/-- What every part of a poll does that does not look at the deadline. -/
structure Works (s : Surroundings) (w w' : Wait α σ) : Prop where
  begun : w.phase ≠ .starting → w'.phase ≠ .starting
  /-- The end of a listing is fixed when it begins. -/
  lists : w.phase ≠ .starting → ∀ endsAt, w'.listsUntil? = some endsAt →
    w.listsUntil? = some endsAt
  ended : w'.endedAt? = w.endedAt? ∨ w'.endedAt? = some s.now
  timedOut : w'.isTimedOut = true → w.isTimedOut = true

namespace Works

theorem refl (s : Surroundings) (w : Wait α σ) : w.Works s w :=
  ⟨id, fun _ _ h => h, Or.inl rfl, id⟩

theorem trans (h : w.Works s w') (h' : w'.Works s w'') : w.Works s w'' := by
  refine ⟨h'.begun ∘ h.begun, ?_, ?_, h.timedOut ∘ h'.timedOut⟩
  · intro hbegun endsAt hlists
    exact h.lists hbegun endsAt (h'.lists (h.begun hbegun) endsAt hlists)
  · rcases h'.ended with hended | hended
    · exact hended ▸ h.ended
    · exact Or.inr hended

theorem finish (w : Wait α σ) (s : Surroundings) {outcome : Except ClientError (Found α)}
    (hcause : ∀ expected status, outcome ≠ .error (.timeout expected status)) :
    w.Works s (w.finish s outcome) := by
  refine ⟨fun _ => (nomatch ·), fun _ _ => (nomatch ·), Or.inr rfl, ?_⟩
  intro htimedOut
  rw [isTimedOut, Wait.finish] at htimedOut
  split at htimedOut
  next hphase =>
    cases hphase
    exact absurd rfl (hcause _ _)
  · cases htimedOut

/-- A part of a poll may take the wait to a phase that is none of the first two and none of the
last. -/
theorem of_phase {phase : WaitPhase α} {stream : Option AccountStream} {opened : Nat}
    (hopen : w.outcome? = none) (hstarting : phase ≠ .starting)
    (hlisting : ∀ endsAt, phase ≠ .listing endsAt)
    (hfinished : ∀ outcome time, phase ≠ .finished outcome time) :
    w.Works s { w with phase, stream, opened } := by
  rw [← endedAt?_eq_none_iff] at hopen
  refine ⟨fun _ => hstarting, ?_, Or.inl ?_, ?_⟩
  · intro _ endsAt hlists
    rw [listsUntil?] at hlists
    split at hlists
    next hphase => exact absurd hphase (hlisting _)
    · cases hlists
  · rw [hopen, endedAt?]
    split
    next hphase => exact absurd hphase (hfinished _ _)
    · rfl
  · intro htimedOut
    rw [isTimedOut] at htimedOut
    split at htimedOut
    next hphase => exact absurd hphase (hfinished _ _)
    · cases htimedOut

end Works

private theorem works_begin (s : Surroundings) (w : Wait α σ) : w.Works s (w.begin s) := by
  obtain ⟨request, deadline, phase, stream, opened, ownFired⟩ := w
  cases phase with
  | starting =>
    simp only [begin]
    split
    · exact .finish _ s (by rintro _ _ ⟨⟩)
    · split
      · exact .finish _ s (by rintro _ _ ⟨⟩)
      · exact ⟨fun h => absurd rfl h, fun h => absurd rfl h, Or.inl rfl, by rintro ⟨⟩⟩
  | _ => exact .refl s _

private theorem works_heed (s : Surroundings) (w : Wait α σ) : w.Works s (w.heed s) := by
  rw [heed]
  split
  · exact .finish w s (by rintro _ _ ⟨⟩)
  · exact .refl s w

private theorem works_subscribe (s : Surroundings) (w : Wait α σ) : w.Works s (w.subscribe s) := by
  obtain ⟨request, deadline, phase, stream, opened, ownFired⟩ := w
  cases phase with
  | subscribing opensAt filters found =>
    simp only [subscribe]
    split
    · exact .refl s _
    · exact .of_phase rfl (by simp) (by simp) (by simp)
  | _ => exact .refl s _

variable [Enumeration σ] [DecidableEq σ]

private theorem works_list (s : Surroundings) (w : Wait α σ) : w.Works s (w.list s) := by
  obtain ⟨request, deadline, phase, stream, opened, ownFired⟩ := w
  cases phase with
  | listing endsAt =>
    simp only [list]
    split
    · exact .refl s _
    · cases hlisting : s.endpoint.listing request.filters with
      | error e =>
        obtain ⟨cause, rfl⟩ := Endpoint.transport_of_listing hlisting
        exact .finish _ s (by rintro _ _ ⟨⟩)
      | ok accounts =>
        dsimp only
        split
        · exact .finish _ s (by rintro _ _ ⟨⟩)
        · cases hserve : s.endpoint.serve .programSubscribe with
          | error e =>
            obtain ⟨cause, rfl⟩ := Endpoint.transport_of_serve hserve
            exact .finish _ s (by rintro _ _ ⟨⟩)
          | ok => exact .of_phase rfl (by simp) (by simp) (by simp)
  | _ => exact .refl s _

private theorem works_listen (s : Surroundings) (w : Wait α σ) : w.Works s (w.listen s) := by
  obtain ⟨request, deadline, phase, stream, opened, ownFired⟩ := w
  cases phase with
  | listening found =>
    cases stream with
    | none => exact .refl s _
    | some stream =>
      simp only [listen]
      split
      · exact .finish _ s (by rintro _ _ ⟨⟩)
      · split
        · exact .finish _ s (by rintro _ _ ⟨⟩)
        · exact .of_phase rfl (by simp) (by simp) (by simp)
  | _ => exact .refl s _

private theorem works_after_list (s : Surroundings) (w : Wait α σ) :
    (((w.begin s).heed s).list s).Works s (w.work s) :=
  (works_subscribe s _).trans (works_listen s _)

theorem works_after_begin (s : Surroundings) (w : Wait α σ) : (w.begin s).Works s (w.work s) :=
  ((works_heed s _).trans (works_list s _)).trans (works_after_list s w)

theorem works_work (s : Surroundings) (w : Wait α σ) : w.Works s (w.work s) :=
  (works_begin s w).trans (works_after_begin s w)

omit [DecidableEq σ] in
/-- The last part of a poll lets the wait be, unless its deadline has come. -/
theorem expire_cases (w : Wait α σ) (s : Surroundings) :
    (w.expire s = w ∧ (w.outcome? = none → ∀ time, w.deadline = some time → s.now < time)) ∨
      w.outcome? = none ∧ (∃ time, w.deadline = some time ∧ time ≤ s.now) ∧ w.expire s =
        w.finish s (.error (.timeout w.request.expected (Enumeration.name w.request.status))) := by
  rw [expire, isFinished_eq_isSome]
  cases hopen : w.outcome? with
  | some outcome => exact Or.inl ⟨rfl, by rintro ⟨⟩⟩
  | none =>
    cases hdeadline : w.deadline with
    | none => exact Or.inl ⟨rfl, by rintro _ _ ⟨⟩⟩
    | some time =>
      by_cases hdue : time ≤ s.now
      · exact Or.inr ⟨rfl, ⟨time, rfl, hdue⟩, by simp [hdue]⟩
      · refine Or.inl ⟨by simp [hdue], ?_⟩
        rintro - _ ⟨⟩
        exact Nat.not_le.mp hdue

/-- A poll is what it does before it looks at the deadline, unless the deadline has come. -/
theorem poll_cases (w : Wait α σ) (s : Surroundings) :
    (w.poll s = w.work s ∧ ((w.work s).outcome? = none →
      ∀ time, (w.work s).deadline = some time → s.now < time)) ∨
      (w.work s).outcome? = none ∧ (∃ time, (w.work s).deadline = some time ∧ time ≤ s.now) ∧
        w.poll s = (w.work s).finish s (.error (.timeout (w.work s).request.expected
          (Enumeration.name (w.work s).request.status))) := by
  rw [poll_eq_expire]
  exact expire_cases (w.work s) s

/-- A listing that goes on after a poll went on before the look at the deadline. -/
theorem listsUntil?_of_poll {endsAt : Nat} (h : (w.poll s).listsUntil? = some endsAt) :
    (w.work s).listsUntil? = some endsAt := by
  rcases poll_cases w s with ⟨hself, -⟩ | ⟨-, -, hfinish⟩
  · rwa [hself] at h
  · rw [hfinish] at h
    cases h

/-! ## Nothing left to do -/

omit [Enumeration σ] [DecidableEq σ] in
theorem mem_timers_iff {time : Nat} : time ∈ w.timers ↔ w.outcome? = none ∧
    (w.listsUntil? = some time ∨ w.callsUntil? = some time ∨ w.deadline = some time) := by
  obtain ⟨request, deadline, phase, stream, opened, ownFired⟩ := w
  cases phase <;> simp [timers, outcome?, listsUntil?, callsUntil?, eq_comm]

/-- Nothing is left to do before the next timer of the wait: it has begun and was not called off,
and it has looked at all that came of its stream, which goes on. -/
structure Rests (w : Wait α σ) (s : Surroundings) : Prop where
  begun : w.phase ≠ .starting
  quiet : w.outcome? = none → w.isCalledOff s.fired = false
  timers : ∀ time ∈ w.timers, s.now < time
  stream : w.stage = .listening → ∀ stream, w.stream = some stream →
    stream.pending = [] ∧ stream.closed = false

omit [Enumeration σ] [DecidableEq σ] in
theorem phase_begin_ne_starting (w : Wait α σ) (s : Surroundings) :
    (w.begin s).phase ≠ .starting := by
  rw [begin]
  split
  · split
    · simp [finish]
    · split <;> simp [finish]
  next hphase => exact fun h => hphase h

omit [Enumeration σ] [DecidableEq σ] in
theorem eq_of_listsUntil?_begin (hphase : w.phase = .starting) {endsAt : Nat}
    (h : (w.begin s).listsUntil? = some endsAt) : endsAt = s.now + s.endpoint.listingDelay := by
  rw [begin, hphase] at h
  dsimp only at h
  cases hcan : s.canSubscribe with
  | false =>
    rw [hcan] at h
    cases h
  | true =>
    cases htargets : w.request.targets.isEmpty with
    | true =>
      rw [hcan, htargets] at h
      cases h
    | false =>
      rw [hcan, htargets] at h
      exact (Option.some.inj h).symm

private theorem lt_of_listsUntil?_list {endsAt : Nat} (h : (w.list s).listsUntil? = some endsAt) :
    s.now < endsAt := by
  obtain ⟨request, deadline, phase, stream, opened, ownFired⟩ := w
  cases phase with
  | listing endsAt' =>
    simp only [list] at h
    split at h
    next hlt =>
      cases h
      exact hlt
    · split at h
      · cases h
      · split at h
        · cases h
        · split at h <;> cases h
  | _ => cases h

theorem lt_of_listsUntil?_work {endsAt : Nat} (h : (w.work s).listsUntil? = some endsAt) :
    s.now < endsAt := by
  have hbegun := ((works_heed s _).trans (works_list s _)).begun (phase_begin_ne_starting w s)
  exact lt_of_listsUntil?_list ((works_after_list s w).lists hbegun endsAt h)

omit [Enumeration σ] [DecidableEq σ] in
private theorem lt_of_callsUntil?_subscribe {opensAt : Nat}
    (h : (w.subscribe s).callsUntil? = some opensAt) : s.now < opensAt := by
  obtain ⟨request, deadline, phase, stream, opened, ownFired⟩ := w
  cases phase with
  | subscribing opensAt' filters found =>
    simp only [subscribe] at h
    split at h
    next hlt =>
      cases h
      exact hlt
    · cases h
  | _ => cases h

private theorem callsUntil?_of_listen {opensAt : Nat}
    (h : (w.listen s).callsUntil? = some opensAt) : w.callsUntil? = some opensAt := by
  rw [listen] at h
  split at h
  · dsimp only at h
    split at h
    · cases h
    · split at h <;> cases h
  · exact h

/-- A poll leaves no timer that is due. -/
private theorem lt_of_mem_timers_poll {time : Nat} (h : time ∈ (w.poll s).timers) :
    s.now < time := by
  rcases poll_cases w s with ⟨hself, hdeadline⟩ | ⟨-, -, hfinish⟩
  · rw [hself, mem_timers_iff] at h
    obtain ⟨hopen, hlists | hcalls | htime⟩ := h
    · exact lt_of_listsUntil?_work hlists
    · exact lt_of_callsUntil?_subscribe (callsUntil?_of_listen hcalls)
    · exact hdeadline hopen time htime
  · rw [hfinish] at h
    cases h

/-- A poll leaves nothing to do. -/
theorem rests_poll (w : Wait α σ) (s : Surroundings) : (w.poll s).Rests s where
  begun := by
    rcases poll_cases w s with ⟨hself, -⟩ | ⟨-, -, hfinish⟩
    · rw [hself]
      exact (works_after_begin s w).begun (phase_begin_ne_starting w s)
    · rw [hfinish]
      simp [finish]
  quiet := by
    intro hopen
    by_contra hfired
    rw [Bool.not_eq_false, isCalledOff, ownFired_poll, (follows_poll s w).request,
      ← isCalledOff] at hfired
    obtain ⟨-, outcome, hend⟩ := opened_poll_of_isCalledOff hfired
    cases hopen.symm.trans hend
  timers := fun _ h => lt_of_mem_timers_poll h
  stream := fun hstage _ hstream => poll_quiet s w hstage hstream

theorem rests_turn (w : Wait α σ) (s : Surroundings) : (w.turn s).Rests s := by
  have hrests := rests_poll w s
  cases hover : (w.poll s).isFinished with
  | true =>
    rw [turn, letGo, if_pos hover]
    refine ⟨hrests.begun, ?_, hrests.timers, hrests.stream⟩
    intro hopen
    rw [isFinished_eq_isSome, show (w.poll s).outcome? = none from hopen] at hover
    cases hover
  | false => rwa [turn, letGo_eq_self hover]

omit [Enumeration σ] [DecidableEq σ] in
theorem begin_eq_self_of_begun (h : w.phase ≠ .starting) (s : Surroundings) : w.begin s = w := by
  rw [begin]
  split
  next hphase => exact absurd hphase h
  · rfl

private theorem list_eq_self_of_early (h : ∀ endsAt, w.listsUntil? = some endsAt → s.now < endsAt) :
    w.list s = w := by
  rw [list]
  split
  next endsAt hphase => rw [if_pos (h endsAt (by rw [listsUntil?, hphase]))]
  · rfl

omit [Enumeration σ] [DecidableEq σ] in
private theorem subscribe_eq_self_of_early
    (h : ∀ opensAt, w.callsUntil? = some opensAt → s.now < opensAt) : w.subscribe s = w := by
  rw [subscribe]
  split
  next opensAt filters found hphase => rw [if_pos (h opensAt (by rw [callsUntil?, hphase]))]
  · rfl

private theorem listen_eq_self_of_quiet
    (h : w.stage = .listening → ∀ stream, w.stream = some stream →
      stream.pending = [] ∧ stream.closed = false) : w.listen s = w := by
  obtain ⟨request, deadline, phase, stream, opened, ownFired⟩ := w
  cases phase with
  | listening found =>
    cases stream with
    | none => rfl
    | some stream =>
      obtain ⟨filters, pending, closed⟩ := stream
      obtain ⟨rfl, rfl⟩ := h rfl _ rfl
      rfl
  | _ => rfl

/-- Until the next timer of a wait, polls find nothing to do. -/
theorem Rests.poll_eq_self (h : w.Rests s) {s' : Surroundings} (hfired : s'.fired = s.fired)
    (hearly : ∀ time ∈ w.timers, s'.now < time) : w.poll s' = w := by
  cases hopen : w.outcome? with
  | some outcome => exact Wait.poll_eq_self hopen s'
  | none =>
    have htimer {time : Nat} (htime : w.listsUntil? = some time ∨ w.callsUntil? = some time ∨
        w.deadline = some time) : s'.now < time :=
      hearly time (mem_timers_iff.mpr ⟨hopen, htime⟩)
    have hwork : w.work s' = w := by
      rw [work, begin_eq_self_of_begun h.begun, heed_eq_self (hfired ▸ h.quiet hopen),
        list_eq_self_of_early fun endsAt hlists => htimer (Or.inl hlists),
        subscribe_eq_self_of_early fun opensAt hcalls => htimer (Or.inr (Or.inl hcalls)),
        listen_eq_self_of_quiet h.stream]
    rw [poll_eq_expire, hwork]
    rcases expire_cases w s' with ⟨hself, -⟩ | ⟨-, ⟨time, htime, hdue⟩, -⟩
    · exact hself
    · exact absurd (htimer (Or.inr (Or.inr htime))) (Nat.not_lt.mpr hdue)

theorem Rests.turn_eq_self (h : w.Rests s) (hlets : w.LetsGo) {s' : Surroundings}
    (hfired : s'.fired = s.fired) (hearly : ∀ time ∈ w.timers, s'.now < time) : w.turn s' = w := by
  rw [turn, h.poll_eq_self hfired hearly, hlets.letGo_eq_self]

end ComputeNet.Wait
