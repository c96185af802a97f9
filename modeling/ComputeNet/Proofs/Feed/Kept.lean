import ComputeNet.Proofs.Feed.Delivered

/-!
# Feeds that keep their streams

Every feed was opened with a move (`exists_subscribe`). With nothing left to do, it has its stream
if since then it was not cancelled, the endpoint did not end the stream and the receiver has not
failed (`isStreaming_settle_iff`).
-/

namespace ComputeNet

namespace Feed

variable {scope : Scope} {asks : Bool} {failsAt : Option Nat} {told : List LogNotification}
  {ended cancelled : Bool} {f : Feed}

/-- A feed that has worked through what has come has its stream if nothing has freed it. -/
private theorem Fed.isStreaming_poll (h : Fed scope asks failsAt told ended cancelled f) :
    f.poll.isStreaming = true ↔ cancelled = false ∧ ended = false ∧
      takes failsAt (told.flatMap (·.events scope)) = told.flatMap (·.events scope) := by
  cases h with
  | @running seen pending ended _ events hevents hcalls htakes =>
    subst hcalls
    obtain ⟨all, hall⟩ : ∃ all, (seen ++ pending).flatMap (·.events scope) = all := ⟨_, rfl⟩
    rw [poll_running asks ended hevents htakes hall, hall]
    by_cases hsurvives : takes failsAt all = all
    · cases ended <;> simp [hsurvives, isStreaming]
    · simp [hsurvives, isStreaming]
  | failed hevents htakes => simp [Feed.poll, isStreaming, hevents, htakes]
  | finished hevents htakes => simp [Feed.poll, isStreaming]
  | cancelled hevents => simp [Feed.poll, isStreaming]

end Feed

namespace World

/-- A feed that one of some moves opened as the `n`-th. Since then it was not cancelled, and the
endpoint has not ended its stream. -/
structure KeptFeed (w : World) (moves : List Move) (n : Nat) where
  before : List Move
  id : String
  scope : Scope
  asks : Bool
  failsAt : Option Nat
  after : List Move
  /-- The world right after the feed was opened. -/
  opened : World
  moves_eq : moves = before ++ .happen (.subscribe id scope asks failsAt) :: after
  subscribe_eq : (w.play before).subscribe id scope asks failsAt = .ok opened
  number_eq : (w.play before).feeds.length = n
  not_cancelled : ¬ opened.Cancelled n after
  not_ended : after.any (·.endsStreams) = false

namespace KeptFeed

variable {w : World} {moves : List Move} {n : Nat}

/-- The events that were reported since the feed was opened, in order. -/
def reported (k : w.KeptFeed moves n) : List LoggedEvent :=
  (emitted k.after).flatMap (·.events k.scope)

/-- The receiver of the feed has not failed. -/
def Survives (k : w.KeptFeed moves n) : Prop := Feed.takes k.failsAt k.reported = k.reported

end KeptFeed

/-- Whether a feed has its stream when there is nothing left to do, seen from the moves since it was
opened. -/
private theorem isStreaming_of_subscribe {w w' : World} {id : String} {scope : Scope} {asks : Bool}
    {failsAt : Option Nat} (h : w.subscribe id scope asks failsAt = .ok w') (moves : List Move) :
    ∃ f, (w'.play moves).settle.feedAt? w.feeds.length = some f ∧ (f.isStreaming = true ↔
      ¬ w'.Cancelled w.feeds.length moves ∧ moves.any (·.endsStreams) = false ∧
        Feed.takes failsAt ((emitted moves).flatMap (·.events scope)) =
          (emitted moves).flatMap (·.events scope)) := by
  obtain ⟨f, cancelled, hf, hfed, hcancelled, -⟩ := exists_fed_play h moves
  refine ⟨f.poll, by rw [feedAt?_settle, hf, Option.map_some], ?_⟩
  rw [hfed.isStreaming_poll, ← hcancelled, Bool.not_eq_true]

theorem KeptFeed.lt_length {w : World} {moves : List Move} {n : Nat} (k : w.KeptFeed moves n) :
    n < (w.play moves).settle.feeds.length := by
  obtain ⟨before, id, scope, asks, failsAt, after, opened, rfl, hsubscribe, rfl, -, -⟩ := k
  obtain ⟨f, hf, -⟩ := isStreaming_of_subscribe hsubscribe after
  rw [play_append, play_cons, (subscribe_eq_ok_iff.mp hsubscribe).2]
  exact lt_of_feedAt? hf

private theorem length_feeds_act (w : World) (m : Move) :
    (w.act m).feeds.length = w.feeds.length ∨
      (w.act m).feeds.length = w.feeds.length + 1 ∧ w.canOpen = true ∧
        ∃ id scope asks failsAt, m = .happen (.subscribe id scope asks failsAt) := by
  have hlength := congrArg List.length (names_act w m)
  simp only [List.length_append, List.length_map] at hlength
  cases m with
  | settle => exact Or.inl (by simpa using hlength)
  | happen happening =>
    cases happening with
    | subscribe id scope asks failsAt =>
      cases hopen : w.canOpen with
      | true =>
        refine Or.inr ⟨?_, rfl, id, scope, asks, failsAt, rfl⟩
        simpa [hopen, Nat.add_comm] using hlength
      | false => exact Or.inl (by simpa [hopen] using hlength)
    | _ => exact Or.inl (by simpa using hlength)

/-- Every feed was opened with one of the moves, if there was none before them. -/
theorem exists_subscribe {w : World} (hfeeds : w.feeds = []) {moves : List Move} {n : Nat}
    (hn : n < (w.play moves).feeds.length) :
    ∃ before id scope asks failsAt after opened,
      moves = before ++ .happen (.subscribe id scope asks failsAt) :: after ∧
      (w.play before).subscribe id scope asks failsAt = .ok opened ∧
      (w.play before).feeds.length = n := by
  induction moves using List.reverseRecOn with
  | nil =>
    rw [play_nil, hfeeds] at hn
    exact absurd hn (Nat.not_lt_zero n)
  | append_singleton moves m ih =>
    rcases Nat.lt_or_ge n (w.play moves).feeds.length with hlt | hle
    · obtain ⟨before, id, scope, asks, failsAt, after, opened, rfl, hrest⟩ := ih hlt
      exact ⟨before, id, scope, asks, failsAt, after ++ [m], opened, by simp, hrest⟩
    · rw [play_concat] at hn
      rcases length_feeds_act (w.play moves) m with
        hsame | ⟨hmore, hopen, id, scope, asks, failsAt, rfl⟩
      · exact absurd hn (Nat.not_lt.mpr (hsame ▸ hle))
      · have heq : (w.play moves).feeds.length = n := by omega
        have hsubscribe : (w.play moves).subscribe id scope asks failsAt = .ok _ :=
          subscribe_eq_ok_iff.mpr ⟨hopen, rfl⟩
        exact ⟨moves, id, scope, asks, failsAt, [], _, rfl, hsubscribe, heq⟩

/-- With nothing left to do, a feed has its stream exactly if it was kept and its receiver has not
failed. -/
theorem isStreaming_settle_iff {w : World} (hfeeds : w.feeds = []) {moves : List Move} {n : Nat} :
    (∃ f, (w.play moves).settle.feedAt? n = some f ∧ f.isStreaming = true) ↔
      ∃ k : w.KeptFeed moves n, k.Survives := by
  constructor
  · rintro ⟨f, hf, hstreaming⟩
    have hn : n < (w.play moves).feeds.length := by
      rw [feedAt?_settle] at hf
      obtain ⟨g, hg, -⟩ := Option.map_eq_some_iff.mp hf
      exact lt_of_feedAt? hg
    obtain ⟨before, id, scope, asks, failsAt, after, opened, rfl, hsubscribe, rfl⟩ :=
      exists_subscribe hfeeds hn
    obtain ⟨f', hf', hiff⟩ := isStreaming_of_subscribe hsubscribe after
    rw [play_append, play_cons, (subscribe_eq_ok_iff.mp hsubscribe).2, hf'] at hf
    cases hf
    obtain ⟨hcancelled, hended, hsurvives⟩ := hiff.mp hstreaming
    exact ⟨⟨before, id, scope, asks, failsAt, after, opened, rfl, hsubscribe, rfl, hcancelled,
      hended⟩, hsurvives⟩
  · rintro ⟨⟨before, id, scope, asks, failsAt, after, opened, rfl, hsubscribe, rfl, hcancelled,
      hended⟩, hsurvives⟩
    obtain ⟨f, hf, hiff⟩ := isStreaming_of_subscribe hsubscribe after
    refine ⟨f, ?_, hiff.mpr ⟨hcancelled, hended, hsurvives⟩⟩
    rwa [play_append, play_cons, (subscribe_eq_ok_iff.mp hsubscribe).2]

end World

end ComputeNet
