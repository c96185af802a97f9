import ComputeNet.Proofs.World.Play

/-!
# The clock of a world

Time passes from one timer to the next: the next one is the earliest of all timers that lie ahead
(`nextTimer?_eq_some_iff`). So while time passes no wait is polled later than its timers say
(`le_of_mem_timers`).
-/

namespace ComputeNet.World

theorem nextTimer?_eq_some_iff {w : World} {time : Nat} :
    w.nextTimer? = some time ↔ (∃ e ∈ w.waits, time ∈ e.wait.wait.timers) ∧ w.now < time ∧
      ∀ e ∈ w.waits, ∀ later ∈ e.wait.wait.timers, w.now < later → time ≤ later := by
  rw [nextTimer?, List.min?_eq_some_iff]
  simp only [List.mem_filter, List.mem_flatMap, decide_eq_true_eq]
  constructor
  · rintro ⟨⟨he, hlt⟩, hleast⟩
    exact ⟨he, hlt, fun e he later hlater hahead => hleast later ⟨⟨e, he, hlater⟩, hahead⟩⟩
  · rintro ⟨he, hlt, hleast⟩
    refine ⟨⟨he, hlt⟩, ?_⟩
    rintro later ⟨⟨e, he, hlater⟩, hahead⟩
    exact hleast e he later hlater hahead

theorem nextTimer?_eq_none_iff {w : World} :
    w.nextTimer? = none ↔ ∀ e ∈ w.waits, ∀ time ∈ e.wait.wait.timers, time ≤ w.now := by
  rw [nextTimer?, List.min?_eq_none_iff, List.filter_eq_nil_iff]
  simp only [List.mem_flatMap, decide_eq_true_eq, Nat.not_lt]
  constructor
  · exact fun h e he time htime => h time ⟨e, he, htime⟩
  · rintro h time ⟨e, he, htime⟩
    exact h e he time htime

theorem exists_entry_of_waitAt? {w : World} {n : Nat} {e : EntityWait} (h : w.waitAt? n = some e) :
    ∃ entry ∈ w.waits, entry.wait = e := by
  obtain ⟨entry, hentry, rfl⟩ := Option.map_eq_some_iff.mp h
  exact ⟨entry, List.mem_reverse.mp (List.mem_of_getElem? hentry), rfl⟩

section Timers

variable {w : World} {n : Nat} {e : EntityWait} (he : w.waitAt? n = some e)
  (hahead : ∀ time ∈ e.wait.timers, w.now < time)

include he hahead

/-- Time does not pass a timer that lies ahead. -/
theorem le_of_mem_timers {next : Nat} (hnext : w.nextTimer? = some next) :
    ∀ time ∈ e.wait.timers, next ≤ time := by
  intro time htime
  obtain ⟨entry, hentry, rfl⟩ := exists_entry_of_waitAt? he
  exact (nextTimer?_eq_some_iff.mp hnext).2.2 entry hentry time htime (hahead time htime)

theorem timers_eq_nil (hnext : w.nextTimer? = none) : e.wait.timers = [] := by
  rw [List.eq_nil_iff_forall_not_mem]
  intro time htime
  obtain ⟨entry, hentry, rfl⟩ := exists_entry_of_waitAt? he
  have hle := nextTimer?_eq_none_iff.mp hnext entry hentry time htime
  exact Nat.not_lt.mpr hle (hahead time htime)

end Timers

end ComputeNet.World
