import ComputeNet.World.Run

/-!
# Turns of waits

When all background work goes as far as it gets, each wait has a turn: it is polled, and if it is
over then, it fires the token of its own. The tokens that are fired in this way are those of the
waits that are over and of no others (`release_eq`), so the turn of a wait does not depend on the
turns of the other waits (`settle_eq`).
-/

namespace ComputeNet

namespace Wait

variable {α σ : Type} {w : Wait α σ}

/-- A wait that is over fires the token of its own. -/
def letGo (w : Wait α σ) : Wait α σ := if w.isFinished then w.fireOwn else w

@[simp] theorem letGo_request (w : Wait α σ) : w.letGo.request = w.request := by
  rw [letGo]
  split <;> rfl

@[simp] theorem letGo_deadline (w : Wait α σ) : w.letGo.deadline = w.deadline := by
  rw [letGo]
  split <;> rfl

@[simp] theorem letGo_phase (w : Wait α σ) : w.letGo.phase = w.phase := by
  rw [letGo]
  split <;> rfl

@[simp] theorem letGo_stream (w : Wait α σ) : w.letGo.stream = w.stream := by
  rw [letGo]
  split <;> rfl

@[simp] theorem letGo_opened (w : Wait α σ) : w.letGo.opened = w.opened := by
  rw [letGo]
  split <;> rfl

@[simp] theorem outcome?_letGo (w : Wait α σ) : w.letGo.outcome? = w.outcome? := by
  rw [outcome?, outcome?, letGo_phase]

/-- A wait that is not over keeps its own token. -/
theorem letGo_eq_self (h : w.isFinished = false) : w.letGo = w := by
  rw [letGo, h]
  rfl

/-- A turn of a wait: it gets as far as it gets, and if it is over then, it fires its own token. -/
def turn [Enumeration σ] [DecidableEq σ] (s : Surroundings) (w : Wait α σ) : Wait α σ :=
  (w.poll s).letGo

end Wait

namespace World

/-! ## The waits that are over -/

theorem length_fireOwn (n : Nat) (entries : List WaitEntry) :
    (fireOwn n entries).length = entries.length := by
  induction entries with
  | nil => rfl
  | cons e entries ih =>
    rw [fireOwn]
    split
    · rfl
    · rw [List.length_cons, List.length_cons, ih]

theorem lt_of_mem_overNumbers {entries : List WaitEntry} {n : Nat} (h : n ∈ overNumbers entries) :
    n < entries.length := by
  induction entries with
  | nil => cases h
  | cons e entries ih =>
    rw [overNumbers] at h
    split at h
    · rcases List.mem_cons.mp h with rfl | h
      · exact Nat.lt_succ_self _
      · exact Nat.lt_succ_of_lt (ih h)
    · exact Nat.lt_succ_of_lt (ih h)

/-- The own tokens of earlier waits are not that of a later one. -/
theorem foldl_fireOwn_cons (e : WaitEntry) {entries : List WaitEntry} {numbers : List Nat}
    (h : ∀ n ∈ numbers, n < entries.length) :
    numbers.foldl (fun es n => fireOwn n es) (e :: entries) =
      e :: numbers.foldl (fun es n => fireOwn n es) entries := by
  induction numbers generalizing entries with
  | nil => rfl
  | cons n numbers ih =>
    obtain ⟨hn, hrest⟩ := List.forall_mem_cons.mp h
    have hcons : fireOwn n (e :: entries) = e :: fireOwn n entries :=
      if_neg (Nat.ne_of_gt hn)
    rw [List.foldl_cons, List.foldl_cons, hcons]
    refine ih ?_
    rwa [length_fireOwn]

private theorem foldl_fireOwn_overNumbers (entries : List WaitEntry) :
    (overNumbers entries).foldl (fun es n => fireOwn n es) entries =
      entries.map fun e => { e with wait := e.wait.modify (·.letGo) } := by
  induction entries with
  | nil => rfl
  | cons e entries ih =>
    have hlt (n : Nat) (hn : n ∈ overNumbers entries) : n < entries.length :=
      lt_of_mem_overNumbers hn
    rw [overNumbers, List.map_cons]
    by_cases hover : e.wait.wait.isFinished = true
    · have hhead : fireOwn entries.length (e :: entries) =
          { e with wait := e.wait.modify (·.fireOwn) } :: entries := if_pos rfl
      rw [if_pos hover, List.foldl_cons, hhead, foldl_fireOwn_cons _ hlt, ih]
      simp only [EntityWait.modify, Wait.letGo, if_pos hover]
    · rw [if_neg hover, foldl_fireOwn_cons _ hlt, ih]
      simp only [EntityWait.modify, Wait.letGo, if_neg hover]

/-- The tokens that are fired by the waits that are over concern nobody but these waits. -/
theorem release_eq (w : World) : w.release = w.mapWaits (·.letGo) := by
  rw [release, foldl_fire_own, foldl_fireOwn_overNumbers]
  rfl

/-- When all background work goes as far as it gets, each wait has its turn and each feed does its
work, and nothing else happens. -/
theorem settle_eq (w : World) :
    w.settle = (w.mapWaits (·.turn w.surroundings)).mapFeeds Feed.poll := by
  rw [settle, release_eq, mapWaits, mapWaits, List.map_map]
  rfl

@[simp] theorem settle_client (w : World) : w.settle.client = w.client := by
  rw [settle_eq]
  rfl

@[simp] theorem settle_endpoint (w : World) : w.settle.endpoint = w.endpoint := by
  rw [settle_eq]
  rfl

@[simp] theorem settle_fired (w : World) : w.settle.fired = w.fired := by
  rw [settle_eq]
  rfl

@[simp] theorem settle_surroundings (w : World) : w.settle.surroundings = w.surroundings := by
  rw [settle_eq]
  rfl

theorem settle_feeds (w : World) : w.settle.feeds = (w.mapFeeds Feed.poll).feeds := by
  rw [settle_eq]
  rfl

end World

end ComputeNet
