import ComputeNet.Proofs.World.Play

/-!
# The course of a wait

Whatever happens, a wait asks for the same, never goes back to an earlier stage, and while it
listens keeps the filters of its stream, which stays closed once it is (`Follows`). Polls, changes
and closings have this in common, so moves of a world have it too (`follows_act`). Throughout its
course a wait has fired its own token if and only if it is over (`letsGo_play`).
-/

namespace ComputeNet

/-- The place of a stage among the stages. -/
def Stage.rank : Stage → Nat
  | .listing => 0
  | .subscribing => 1
  | .listening => 2
  | .finished => 3

theorem Stage.rank_injective {s s' : Stage} (h : s.rank = s'.rank) : s = s' := by
  cases s <;> cases s' <;> first | rfl | exact absurd h (by decide)

namespace Wait

variable {α σ : Type}

/-- What may become of a wait. -/
structure Follows (w w' : Wait α σ) : Prop where
  request : w'.request = w.request
  rank_le : w.stage.rank ≤ w'.stage.rank
  stream : w.stage = .listening → w'.stage = .listening → ∀ s', w'.stream = some s' →
    ∃ s, w.stream = some s ∧ s'.filters = s.filters ∧ (s.closed = true → s'.closed = true)

namespace Follows

variable {w w' w'' : Wait α σ}

theorem refl (w : Wait α σ) : w.Follows w :=
  ⟨rfl, Nat.le_refl _, fun _ _ s hs => ⟨s, hs, rfl, id⟩⟩

theorem trans (h : w.Follows w') (h' : w'.Follows w'') : w.Follows w'' := by
  refine ⟨h'.request.trans h.request, Nat.le_trans h.rank_le h'.rank_le, ?_⟩
  intro hw hw'' s'' hs''
  have hmiddle : w'.stage = .listening := by
    have hle := h.rank_le
    have hle' := h'.rank_le
    rw [hw] at hle
    rw [hw''] at hle'
    exact Stage.rank_injective (Nat.le_antisymm hle' hle)
  obtain ⟨s', hs', hfilters', hclosed'⟩ := h'.stream hmiddle hw'' s'' hs''
  obtain ⟨s, hs, hfilters, hclosed⟩ := h.stream hw hmiddle s' hs'
  exact ⟨s, hs, hfilters'.trans hfilters, hclosed' ∘ hclosed⟩

/-- A wait that has not ended later had not ended before. -/
theorem stage_ne_finished (h : w.Follows w') (hw' : w'.stage ≠ .finished) :
    w.stage ≠ .finished := by
  intro hw
  have hle := h.rank_le
  rw [hw] at hle
  cases hstage : w'.stage with
  | finished => exact hw' hstage
  | _ => rw [hstage] at hle; exact absurd hle (by decide)

/-- A wait whose listing has not been answered later had no answer before. -/
theorem stage_eq_listing (h : w.Follows w') (hw' : w'.stage = .listing) : w.stage = .listing := by
  have hle := h.rank_le
  rw [hw'] at hle
  exact Stage.rank_injective (Nat.le_zero.mp hle)

/-- A wait that is over has a stage that none is after. -/
theorem of_finished (hrequest : w'.request = w.request) (hw' : w'.stage = .finished) :
    w.Follows w' := by
  refine ⟨hrequest, ?_, fun _ h => absurd (hw'.symm.trans h) (by decide)⟩
  rw [hw']
  cases w.stage <;> decide

/-- Before it listens a wait has nothing to keep but the order of its stages. -/
theorem of_stage_ne_listening (hrequest : w'.request = w.request)
    (hle : w.stage.rank ≤ w'.stage.rank) (hw : w.stage ≠ .listening) : w.Follows w' :=
  ⟨hrequest, hle, fun h => absurd h hw⟩

end Follows

private theorem follows_notice (address : Address) (data : Bytes) (w : Wait α σ) :
    w.Follows (w.notice address data) := by
  refine ⟨rfl, Nat.le_refl _, ?_⟩
  intro _ _ s' hs'
  obtain ⟨s, hs, rfl⟩ := Option.map_eq_some_iff.mp hs'
  refine ⟨s, hs, ?_⟩
  rw [AccountStream.push]
  split <;> exact ⟨rfl, id⟩

private theorem follows_closeStream (w : Wait α σ) : w.Follows w.closeStream := by
  refine ⟨rfl, Nat.le_refl _, ?_⟩
  intro _ _ s' hs'
  obtain ⟨s, hs, rfl⟩ := Option.map_eq_some_iff.mp hs'
  exact ⟨s, hs, rfl, fun _ => rfl⟩

theorem follows_undergo (w : Wait α σ) (m : Move) : w.Follows (w.undergo m) := by
  cases m with
  | settle => exact .refl w
  | happen h =>
    cases h with
    | account a => exact follows_notice a.address a.data w
    | streamsClose => exact follows_closeStream w
    | _ => exact .refl w

private theorem follows_letGo (w : Wait α σ) : w.Follows w.letGo := by
  refine ⟨letGo_request w, Nat.le_of_eq (congrArg Stage.rank (stage_letGo w).symm), ?_⟩
  intro _ _ s hs
  exact ⟨s, letGo_stream w ▸ hs, rfl, id⟩

theorem follows_begin (s : Surroundings) (w : Wait α σ) : w.Follows (w.begin s) := by
  obtain ⟨request, deadline, phase, stream, opened, ownFired⟩ := w
  cases phase with
  | starting =>
    simp only [begin]
    split
    · exact .of_finished rfl rfl
    · split
      · exact .of_finished rfl rfl
      · exact .of_stage_ne_listening rfl (by simp [stage]) (by simp [stage])
  | _ => exact .refl _

theorem follows_heed (s : Surroundings) (w : Wait α σ) : w.Follows (w.heed s) := by
  rw [heed]
  split
  · exact .of_finished rfl rfl
  · exact .refl w

theorem follows_subscribe (s : Surroundings) (w : Wait α σ) : w.Follows (w.subscribe s) := by
  obtain ⟨request, deadline, phase, stream, opened, ownFired⟩ := w
  cases phase with
  | subscribing opensAt filters found =>
    simp only [subscribe]
    split
    · exact .refl _
    · exact .of_stage_ne_listening rfl (by simp [stage, Stage.rank]) (by simp [stage])
  | _ => exact .refl _

variable [Enumeration σ]

theorem follows_expire (s : Surroundings) (w : Wait α σ) : w.Follows (w.expire s) := by
  rw [expire]
  split
  · exact .of_finished rfl rfl
  · exact .refl w

variable [DecidableEq σ]

theorem follows_list (s : Surroundings) (w : Wait α σ) : w.Follows (w.list s) := by
  obtain ⟨request, deadline, phase, stream, opened, ownFired⟩ := w
  cases phase with
  | listing endsAt =>
    simp only [list]
    split
    · exact .refl _
    · split
      · exact .of_finished rfl rfl
      · split
        · exact .of_finished rfl rfl
        · split
          · exact .of_finished rfl rfl
          · exact .of_stage_ne_listening rfl (by simp [stage, Stage.rank]) (by simp [stage])
  | _ => exact .refl _

theorem follows_listen (s : Surroundings) (w : Wait α σ) : w.Follows (w.listen s) := by
  obtain ⟨request, deadline, phase, stream, opened, ownFired⟩ := w
  cases phase with
  | listening found =>
    cases stream with
    | none => exact .refl _
    | some stream =>
      simp only [listen]
      split
      · exact .of_finished rfl rfl
      · split
        · exact .of_finished rfl rfl
        · refine ⟨rfl, Nat.le_refl _, fun _ _ s' hs' => ⟨stream, rfl, ?_⟩⟩
          cases hs'
          exact ⟨rfl, id⟩
  | _ => exact .refl _

/-- A poll up to the point at which it looks at the deadline. -/
def work (s : Surroundings) (w : Wait α σ) : Wait α σ :=
  ((((w.begin s).heed s).list s).subscribe s).listen s

theorem poll_eq_expire (s : Surroundings) (w : Wait α σ) : w.poll s = (w.work s).expire s := rfl

theorem follows_work (s : Surroundings) (w : Wait α σ) : w.Follows (w.work s) :=
  ((((follows_begin s w).trans (follows_heed s _)).trans (follows_list s _)).trans
    (follows_subscribe s _)).trans (follows_listen s _)

theorem follows_poll (s : Surroundings) (w : Wait α σ) : w.Follows (w.poll s) :=
  (follows_work s w).trans (follows_expire s _)

theorem follows_turn (s : Surroundings) (w : Wait α σ) : w.Follows (w.turn s) :=
  (follows_poll s w).trans (follows_letGo _)

theorem follows_pollAll (polls : List Surroundings) (w : Wait α σ) :
    w.Follows (w.pollAll polls) := by
  induction polls generalizing w with
  | nil => exact .refl w
  | cons s polls ih => exact (follows_turn s w).trans (ih (w.turn s))

/-! ## The own token -/

variable {w : Wait α σ}

/-- The wait has fired its own token if and only if it is over. -/
def LetsGo (w : Wait α σ) : Prop := w.ownFired = w.isFinished

omit [Enumeration σ] [DecidableEq σ] in
theorem isFinished_eq_isSome (w : Wait α σ) : w.isFinished = w.outcome?.isSome := by
  rw [isFinished, outcome?]
  cases w.phase <;> rfl

omit [Enumeration σ] [DecidableEq σ] in
private theorem isFinished_eq_false_iff : w.isFinished = false ↔ w.stage ≠ .finished := by
  rw [isFinished, stage]
  cases w.phase <;> simp

/-- The own token is not fired before the poll has come to its end. -/
theorem ownFired_poll (s : Surroundings) (w : Wait α σ) : (w.poll s).ownFired = w.ownFired := by
  have hbegin (w : Wait α σ) : (w.begin s).ownFired = w.ownFired := by
    rw [begin]
    split
    · split
      · rfl
      · split <;> rfl
    · rfl
  have hheed (w : Wait α σ) : (w.heed s).ownFired = w.ownFired := by
    rw [heed]
    split <;> rfl
  have hlist (w : Wait α σ) : (w.list s).ownFired = w.ownFired := by
    rw [list]
    split
    · split
      · rfl
      · split
        · rfl
        · dsimp only
          split
          · rfl
          · split <;> rfl
    · rfl
  have hsubscribe (w : Wait α σ) : (w.subscribe s).ownFired = w.ownFired := by
    rw [subscribe]
    split
    · split <;> rfl
    · rfl
  have hlisten (w : Wait α σ) : (w.listen s).ownFired = w.ownFired := by
    rw [listen]
    split
    · dsimp only
      split
      · rfl
      · split <;> rfl
    · rfl
  have hexpire (w : Wait α σ) : (w.expire s).ownFired = w.ownFired := by
    rw [expire]
    split <;> rfl
  rw [poll, hexpire, hlisten, hsubscribe, hlist, hheed, hbegin]

namespace LetsGo

theorem turn (h : w.LetsGo) (s : Surroundings) : (w.turn s).LetsGo := by
  cases hover : (w.poll s).isFinished with
  | true =>
    rw [LetsGo, Wait.turn, letGo, if_pos hover]
    exact hover.symm
  | false =>
    have hopen : w.isFinished = false := by
      rw [isFinished_eq_false_iff] at hover ⊢
      exact (follows_poll s w).stage_ne_finished hover
    rw [LetsGo, Wait.turn, letGo_eq_self hover, ownFired_poll, hover]
    exact Eq.trans h hopen

theorem pollAll (h : w.LetsGo) (polls : List Surroundings) : (w.pollAll polls).LetsGo := by
  induction polls generalizing w with
  | nil => exact h
  | cons s polls ih => exact ih (h.turn s)

omit [Enumeration σ] [DecidableEq σ] in
theorem undergo (h : w.LetsGo) (m : Move) : (w.undergo m).LetsGo := by
  cases m with
  | settle => exact h
  | happen happening => cases happening <;> exact h

omit [Enumeration σ] [DecidableEq σ] in
/-- A wait that goes on has its own token yet. -/
theorem ownFired_eq_false (h : w.LetsGo) (hopen : w.outcome? = none) : w.ownFired = false := by
  have hgoes : w.isFinished = false := by
    rw [isFinished_eq_isSome, hopen]
    rfl
  exact Eq.trans h hgoes

omit [Enumeration σ] [DecidableEq σ] in
theorem letGo_eq_self (h : w.LetsGo) : w.letGo = w := by
  cases hover : w.isFinished with
  | true =>
    have hown : w.ownFired = true := Eq.trans h hover
    rw [letGo, if_pos hover, fireOwn, ← hown]
  | false => exact Wait.letGo_eq_self hover

end LetsGo

end Wait

namespace World

variable {kind : EntityKind} {n : Nat}

/-- A move leaves each wait in its place and on its course. -/
theorem follows_act {w : World} {wait : Wait kind.Record kind.Status}
    (h : w.waitAt? n = some ⟨kind, wait⟩) (m : Move) :
    ∃ wait', (w.act m).waitAt? n = some ⟨kind, wait'⟩ ∧ wait.Follows wait' := by
  obtain ⟨polls, -, hwaits⟩ := waitAt?_act w m
  exact ⟨_, hwaits n _ h, (Wait.follows_undergo wait m).trans (Wait.follows_pollAll polls _)⟩

theorem follows_play {w : World} {wait : Wait kind.Record kind.Status}
    (h : w.waitAt? n = some ⟨kind, wait⟩) (moves : List Move) :
    ∃ wait', (w.play moves).waitAt? n = some ⟨kind, wait'⟩ ∧ wait.Follows wait' := by
  induction moves generalizing w wait with
  | nil => exact ⟨wait, h, .refl wait⟩
  | cons m moves ih =>
    obtain ⟨wait', h', hfollows⟩ := follows_act h m
    obtain ⟨wait'', h'', hfollows'⟩ := ih h'
    exact ⟨wait'', h'', hfollows.trans hfollows'⟩

/-- No move makes a wait fire its own token too early, or keep it for too long. -/
theorem letsGo_play {w : World} {wait wait' : Wait kind.Record kind.Status}
    (h : w.waitAt? n = some ⟨kind, wait⟩) (hlets : wait.LetsGo) {moves : List Move}
    (h' : (w.play moves).waitAt? n = some ⟨kind, wait'⟩) : wait'.LetsGo := by
  induction moves generalizing w wait with
  | nil =>
    cases h.symm.trans h'
    exact hlets
  | cons m moves ih =>
    obtain ⟨polls, -, hwaits⟩ := waitAt?_act w m
    exact ih (hwaits n _ h) ((hlets.undergo m).pollAll polls) h'

theorem stage?_eq_some {w : World} {wait : Wait kind.Record kind.Status}
    (h : w.waitAt? n = some ⟨kind, wait⟩) : w.stage? n = some wait.stage := by
  rw [stage?, h]
  rfl

/-- A wait that has not ended after some moves had not ended after the first of them. -/
theorem stage?_take_ne_finished {w : World} {e : EntityWait} (h : w.waitAt? n = some e)
    {moves : List Move} (hend : (w.play moves).stage? n ≠ some .finished) (i : Nat) :
    (w.play (moves.take i)).stage? n ≠ some .finished := by
  obtain ⟨kind, wait⟩ := e
  obtain ⟨wait', h', -⟩ := follows_play h (moves.take i)
  obtain ⟨wait'', h'', hfollows⟩ := follows_play h' (moves.drop i)
  rw [← play_append, List.take_append_drop] at h''
  rw [stage?_eq_some h''] at hend
  rw [stage?_eq_some h']
  exact fun heq => hfollows.stage_ne_finished (fun heq' => hend (heq' ▸ rfl)) (Option.some.inj heq)

theorem outcomeAt?_eq_some_iff {w : World} {wait : Wait kind.Record kind.Status}
    (h : w.waitAt? n = some ⟨kind, wait⟩) {outcome : Except ClientError (Found kind.Record)} :
    w.outcomeAt? n = some ⟨kind, outcome⟩ ↔ wait.outcome? = some outcome := by
  simp [outcomeAt?, h]

end World

end ComputeNet
