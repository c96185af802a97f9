import ComputeNet.Proofs.Wait.Informed

/-!
# What a world tells a wait

The answer of a listing is what the endpoint serves at the move with which the listing ends
(`ListsWith`), and the changes that reach a stream are those that are stored while it is open and
lets them through (`arrivals`). Together they are all that a wait gets to know (`informed_play`).
-/

namespace ComputeNet

private theorem Move.stored?_eq_some_iff {m : Move} {a : RawAccount} :
    m.stored? = some a ↔ m = .happen (.account a) := by
  cases m with
  | settle => simp [stored?]
  | happen h => cases h <;> simp [stored?]

namespace Wait

variable {α σ : Type} [Enumeration σ] [DecidableEq σ] {w : Wait α σ}
  {listed : Option (List RawAccount)} {arrived : List (Address × Bytes)}

/-- Polls add nothing to what a wait has been told but the answer of its listing. -/
theorem informed_pollAll (h : w.Informed listed arrived) (e : Endpoint) (polls : List Surroundings)
    (hpolls : ∀ s ∈ polls, s.endpoint = e) :
    ∃ listed', (w.pollAll polls).Informed listed' arrived ∧ (listed' = listed ∨
      w.stage = .listing ∧ (w.pollAll polls).stage ≠ .listing ∧ ∃ accounts,
        listed' = some accounts ∧ e.listing w.request.filters = .ok accounts) := by
  induction polls generalizing w listed with
  | nil => exact ⟨listed, h, Or.inl rfl⟩
  | cons s polls ih =>
    have hs := follows_turn s w
    obtain ⟨listed₁, h₁, hlisted₁⟩ := informed_turn h s
    obtain ⟨listed₂, h₂, hlisted₂⟩ := ih h₁ fun t ht => hpolls t (List.mem_cons_of_mem s ht)
    rcases hlisted₁ with rfl | ⟨hstage, hstage₁, accounts, haccounts, hlisting⟩
    · refine ⟨listed₂, h₂, hlisted₂.imp_right ?_⟩
      rintro ⟨hstage, hrest⟩
      rw [hs.request] at hrest
      exact ⟨hs.stage_eq_listing hstage, hrest⟩
    · rcases hlisted₂ with rfl | ⟨hstage₂, -⟩
      · refine ⟨_, h₂, Or.inr ⟨hstage, ?_, accounts, haccounts, ?_⟩⟩
        · intro hend
          exact hstage₁ ((follows_pollAll polls (w.turn s)).stage_eq_listing hend)
        · rwa [← hpolls s List.mem_cons_self]
      · exact absurd hstage₂ hstage₁

/-- A wait that hears of changes listens. -/
theorem Informed.stage_of_hears (h : w.Informed listed arrived) {data : Bytes}
    (hdata : w.hears data = true) : w.stage = .listening := by
  obtain ⟨request, deadline, phase, stream, opened, ownFired⟩ := w
  cases h with
  | listening => rfl
  | _ => simp [hears] at hdata

end Wait

namespace World

/-- The change that a move brings to the stream of the `n`-th wait. -/
def arrival (w : World) (n : Nat) (m : Move) : List (Address × Bytes) :=
  match m.stored? with
  | some a => if (w.waitAt? n).any (·.wait.hears a.data) then [a.change] else []
  | none => []

/-- The changes that some moves bring to the stream of the `n`-th wait, in order. -/
def arrivals (w : World) (n : Nat) : List Move → List (Address × Bytes)
  | [] => []
  | m :: moves => w.arrival n m ++ (w.act m).arrivals n moves

theorem arrivals_append (w : World) (n : Nat) (moves moves' : List Move) :
    w.arrivals n (moves ++ moves') = w.arrivals n moves ++ (w.play moves).arrivals n moves' := by
  induction moves generalizing w with
  | nil => rfl
  | cons m moves ih => rw [List.cons_append, arrivals, arrivals, ih, List.append_assoc, play_cons]

theorem arrivals_concat (w : World) (n : Nat) (moves : List Move) (m : Move) :
    w.arrivals n (moves ++ [m]) = w.arrivals n moves ++ (w.play moves).arrival n m := by
  rw [arrivals_append, arrivals, arrivals, List.append_nil]

/-- A change that a wait hears of when it is stored reaches its stream. -/
theorem mem_arrivals {w : World} {n : Nat} {before after : List Move} {a : RawAccount}
    {e : EntityWait} (he : (w.play before).waitAt? n = some e)
    (hhears : e.wait.hears a.data = true) :
    a.change ∈ w.arrivals n (before ++ .happen (.account a) :: after) := by
  rw [arrivals_append, arrivals]
  apply List.mem_append_right
  apply List.mem_append_left
  simp [arrival, Move.stored?, he, hhears]

/-- The listing of the `n`-th wait ends with the `j`-th move, and the endpoint answers it with some
accounts. -/
structure ListsWith (w : World) (n : Nat) (filters : List Filter) (moves : List Move) (j : Nat)
    (accounts : List RawAccount) : Prop where
  le_length : j ≤ moves.length
  before : ∀ i < j, (w.play (moves.take i)).stage? n = some .listing
  after : (w.play (moves.take j)).stage? n ≠ some .listing
  listing : (w.play (moves.take j)).endpoint.listing filters = .ok accounts

variable {kind : EntityKind} {n : Nat} {w : World} {wait : Wait kind.Record kind.Status}
  {listed : Option (List RawAccount)} {arrived : List (Address × Bytes)}

/-- What a move tells a wait before it is polled. -/
theorem informed_undergo (hwait : w.waitAt? n = some ⟨kind, wait⟩)
    (h : wait.Informed listed arrived) (m : Move) :
    (wait.undergo m).Informed listed (arrived ++ w.arrival n m) := by
  cases m with
  | settle => exact (List.append_nil arrived).symm ▸ h
  | happen happening =>
    cases happening with
    | account a =>
      have hnotice := Wait.informed_notice h a.address a.data
      simpa [arrival, Move.stored?, hwait, RawAccount.change, Wait.undergo] using hnotice
    | streamsClose => exact (List.append_nil arrived).symm ▸ Wait.informed_closeStream h
    | _ => exact (List.append_nil arrived).symm ▸ h

/-- What a move tells a wait. -/
private theorem informed_act (hwait : w.waitAt? n = some ⟨kind, wait⟩)
    (h : wait.Informed listed arrived) (m : Move) :
    ∃ wait' listed', (w.act m).waitAt? n = some ⟨kind, wait'⟩ ∧ wait.Follows wait' ∧
      wait'.Informed listed' (arrived ++ w.arrival n m) ∧ (listed' = listed ∨
        wait.stage = .listing ∧ wait'.stage ≠ .listing ∧ ∃ accounts, listed' = some accounts ∧
          (w.act m).endpoint.listing wait.request.filters = .ok accounts) := by
  have hundergo := informed_undergo hwait h m
  have hfollows := Wait.follows_undergo wait m
  obtain ⟨polls, hpolls, hwaits⟩ := waitAt?_act w m
  obtain ⟨listed', h', hlisted⟩ := Wait.informed_pollAll hundergo (w.act m).endpoint polls
    fun s hs => (hpolls s hs).endpoint
  refine ⟨_, listed', hwaits n _ hwait, hfollows.trans (Wait.follows_pollAll polls _), h', ?_⟩
  refine hlisted.imp_right ?_
  rintro ⟨hstage, hrest⟩
  rw [hfollows.request] at hrest
  exact ⟨hfollows.stage_eq_listing hstage, hrest⟩

/-- All that a wait gets to know in the course of some moves. -/
theorem informed_play (hwait : w.waitAt? n = some ⟨kind, wait⟩) (h : wait.Informed listed arrived)
    (moves : List Move) :
    ∃ wait' listed', (w.play moves).waitAt? n = some ⟨kind, wait'⟩ ∧ wait.Follows wait' ∧
      wait'.Informed listed' (arrived ++ w.arrivals n moves) ∧ (listed' = listed ∨
        wait.stage = .listing ∧ ∃ accounts j, listed' = some accounts ∧
          w.ListsWith n wait.request.filters moves j accounts) := by
  induction moves generalizing w wait listed arrived with
  | nil => exact ⟨wait, listed, hwait, .refl wait, by rwa [arrivals, List.append_nil], Or.inl rfl⟩
  | cons m moves ih =>
    obtain ⟨wait₁, listed₁, hwait₁, hfollows₁, h₁, hlisted₁⟩ := informed_act hwait h m
    obtain ⟨wait₂, listed₂, hwait₂, hfollows₂, h₂, hlisted₂⟩ := ih hwait₁ h₁
    refine ⟨wait₂, listed₂, hwait₂, hfollows₁.trans hfollows₂, ?_, ?_⟩
    · rwa [arrivals, ← List.append_assoc]
    rcases hlisted₂ with rfl | ⟨hstage₁, accounts, j, haccounts, hlists⟩
    · -- The answer came with the first move, if it came at all.
      refine hlisted₁.imp_right ?_
      rintro ⟨hstage, hstage₁, accounts, haccounts, hlisting⟩
      refine ⟨hstage, accounts, 1, haccounts, ⟨by simp, ?_, ?_, hlisting⟩⟩
      · intro i hi
        rw [Nat.lt_one_iff.mp hi, List.take_zero, play_nil, stage?_eq_some hwait, hstage]
      · intro hend
        rw [List.take_succ_cons, List.take_zero, play_cons, play_nil, stage?_eq_some hwait₁] at hend
        exact hstage₁ (Option.some.inj hend)
    · -- The answer came later.
      have hstage := hfollows₁.stage_eq_listing hstage₁
      rw [hfollows₁.request] at hlists
      refine Or.inr ⟨hstage, accounts, j + 1, haccounts, ⟨?_, ?_, hlists.after, hlists.listing⟩⟩
      · exact Nat.succ_le_succ hlists.le_length
      · intro i hi
        cases i with
        | zero => rw [List.take_zero, play_nil, stage?_eq_some hwait, hstage]
        | succ i => exact hlists.before i (Nat.lt_of_succ_lt_succ hi)

/-- The `n`-th wait has just begun: no change has reached it, and if its listing has been answered,
it was just now. It has not fired its own token, unless it is over. -/
def Begins (w : World) (n : Nat) {kind : EntityKind}
    (request : WaitRequest kind.Record kind.Status) : Prop :=
  ∃ wait listed, w.waitAt? n = some ⟨kind, wait⟩ ∧ wait.request = request ∧ wait.LetsGo ∧
    wait.Informed listed [] ∧ ∀ accounts, listed = some accounts →
      wait.stage ≠ .listing ∧ w.endpoint.listing request.filters = .ok accounts

theorem begins_startWait (w : World) (id : String)
    (request : WaitRequest kind.Record kind.Status) (timeout : Option UInt64) :
    (w.startWait id kind request timeout).Begins w.waits.length request := by
  have hbegin : (w.client.wait w.now request timeout).Informed none [] := .starting
  have hlets : (w.client.wait w.now request timeout).LetsGo := rfl
  obtain ⟨listed, hinformed, hlisted⟩ := Wait.informed_turn hbegin w.surroundings
  have hfollows := Wait.follows_turn w.surroundings (w.client.wait w.now request timeout)
  refine ⟨_, listed, waitAt?_startWait w id kind request timeout, hfollows.request,
    hlets.turn w.surroundings, hinformed, ?_⟩
  rintro accounts rfl
  rcases hlisted with hnone | ⟨-, hstage, accounts', haccounts, hlisting⟩
  · cases hnone
  · cases haccounts
    rw [startWait, settle_endpoint]
    exact ⟨hstage, hlisting⟩

/-- All that a wait gets to know from its beginning on. -/
theorem Begins.informed_play {request : WaitRequest kind.Record kind.Status}
    (h : w.Begins n request) (moves : List Move) :
    ∃ wait listed, (w.play moves).waitAt? n = some ⟨kind, wait⟩ ∧ wait.request = request ∧
      wait.Informed listed (w.arrivals n moves) ∧
      ∀ accounts, listed = some accounts → ∃ j, w.ListsWith n request.filters moves j accounts := by
  obtain ⟨wait₁, listed₁, hwait₁, hrequest, -, h₁, hlisted₁⟩ := h
  obtain ⟨wait₂, listed₂, hwait₂, hfollows, h₂, hlisted₂⟩ := World.informed_play hwait₁ h₁ moves
  rw [List.nil_append] at h₂
  refine ⟨wait₂, listed₂, hwait₂, hfollows.request.trans hrequest, h₂, ?_⟩
  rintro accounts rfl
  rcases hlisted₂ with rfl | ⟨-, accounts', j, haccounts, hlists⟩
  · -- The answer came at once.
    obtain ⟨hstage, hlisting⟩ := hlisted₁ accounts rfl
    refine ⟨0, Nat.zero_le _, fun i hi => absurd hi (Nat.not_lt_zero i), ?_, hlisting⟩
    intro hend
    rw [List.take_zero, play_nil, stage?_eq_some hwait₁] at hend
    exact hstage (Option.some.inj hend)
  · cases haccounts
    rw [hrequest] at hlists
    exact ⟨j, hlists⟩

theorem Begins.letsGo_play {request : WaitRequest kind.Record kind.Status} (h : w.Begins n request)
    {moves : List Move} (hwait : (w.play moves).waitAt? n = some ⟨kind, wait⟩) : wait.LetsGo := by
  obtain ⟨start, -, hstart, -, hlets, -⟩ := h
  exact World.letsGo_play hstart hlets hwait

theorem Begins.exists_waitAt? {request : WaitRequest kind.Record kind.Status}
    (h : w.Begins n request) : ∃ e, w.waitAt? n = some e := by
  obtain ⟨wait, -, hwait, -⟩ := h
  exact ⟨_, hwait⟩

/-- A change that reaches a stream is stored at a moment at which its wait listens. -/
theorem exists_of_mem_arrivals {c : Address × Bytes} {moves : List Move}
    (h : c ∈ w.arrivals n moves) :
    ∃ before a after, moves = before ++ .happen (.account a) :: after ∧ c = a.change ∧
      ∃ e, (w.play before).waitAt? n = some e ∧ e.wait.hears a.data = true := by
  induction moves generalizing w with
  | nil => simp [arrivals] at h
  | cons m moves ih =>
    rcases List.mem_append.mp h with h | h
    · rw [arrival] at h
      split at h
      next a hstored =>
        split at h
        next hhears =>
          obtain ⟨e, he, hdata⟩ := (Option.any_eq_true ..).mp hhears
          exact ⟨[], a, moves, by rw [Move.stored?_eq_some_iff.mp hstored]; rfl,
            List.mem_singleton.mp h, e, he, hdata⟩
        next => simp at h
      next => simp at h
    · obtain ⟨before, a, after, rfl, hc, e, he, hdata⟩ := ih h
      exact ⟨m :: before, a, after, rfl, hc, e, he, hdata⟩

end World

end ComputeNet
