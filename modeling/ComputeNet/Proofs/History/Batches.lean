import Mathlib.Data.List.Basic
import Mathlib.Data.List.Nodup
import ComputeNet.History.Batch

/-!
# Batches keep their order

A list is split into batches without loss (`flatten_split`). The jobs of a batch may end in any
order: each has a slot of its own, so that the results come in the order of the jobs (`run_fst`).
-/

namespace ComputeNet.Batch

variable {α β : Type}

/-- The pieces of a list make up the list. -/
theorem flatten_split (size : Nat) (as : List α) : (split size as).flatten = as := by
  fun_induction split size as with
  | case1 => rfl
  | case2 a as ih => rw [List.flatten_cons, ih, List.cons_append, List.take_append_drop]

/-- The first pieces of a list make up a front of the list. -/
theorem flatten_take_split (size k : Nat) (as : List α) :
    ((split size as).take k).flatten = as.take (k * max 1 size) := by
  fun_induction split size as generalizing k with
  | case1 => simp
  | case2 a as ih =>
    cases k with
    | zero => simp
    | succ k =>
      have hcount : (k + 1) * max 1 size = (size - 1 + k * max 1 size) + 1 := by
        rw [Nat.succ_mul]
        omega
      rw [List.take_succ_cons, List.flatten_cons, ih, hcount, List.take_succ_cons, List.take_add,
        List.cons_append]

@[simp] theorem length_fill (slots : List (Option β)) (ended : List (Job β)) :
    (fill slots ended).length = slots.length := by
  induction ended generalizing slots with
  | nil => rfl
  | cons job ended ih =>
    change (fill (slots.set job.slot (some job.result)) ended).length = slots.length
    rw [ih, List.length_set]

/-- A slot that no job has stays as it is. -/
private theorem getElem?_fill_of_forall_ne (slots : List (Option β)) {ended : List (Job β)}
    {i : Nat} (h : ∀ job ∈ ended, job.slot ≠ i) : (fill slots ended)[i]? = slots[i]? := by
  induction ended generalizing slots with
  | nil => rfl
  | cons job ended ih =>
    change (fill (slots.set job.slot (some job.result)) ended)[i]? = slots[i]?
    rw [ih _ fun job' hjob' => h job' (List.mem_cons_of_mem job hjob')]
    exact List.getElem?_set_ne (h job List.mem_cons_self)

/-- The slot of a job holds its result in the end, whenever the job ended. -/
private theorem getElem?_fill {slots : List (Option β)} {ended : List (Job β)}
    (hslots : (ended.map (·.slot)).Nodup) {job : Job β} (hjob : job ∈ ended)
    (hlt : job.slot < slots.length) : (fill slots ended)[job.slot]? = some (some job.result) := by
  induction ended generalizing slots with
  | nil => cases hjob
  | cons job' ended ih =>
    obtain ⟨hnot, hslots⟩ := List.nodup_cons.mp hslots
    change (fill (slots.set job'.slot (some job'.result)) ended)[job.slot]? = some (some job.result)
    rcases List.mem_cons.mp hjob with rfl | hjob
    · have hne : ∀ other ∈ ended, other.slot ≠ job.slot := by
        intro other hother heq
        exact hnot (List.mem_map.mpr ⟨other, hother, heq⟩)
      rw [getElem?_fill_of_forall_ne _ hne, List.getElem?_set_self hlt]
    · exact ih hslots hjob (by rwa [List.length_set])

/-- The jobs of a batch, each with a slot of its own. -/
def numbered (jobs : List (Nat × β)) : List (Job β) :=
  jobs.zipIdx.map fun p => Job.mk p.2 p.1.1 p.1.2

private theorem arrivals_perm (jobs : List (Job β)) : (arrivals jobs).Perm jobs :=
  List.mergeSort_perm jobs _

private theorem nodup_slots_numbered (jobs : List (Nat × β)) :
    ((numbered jobs).map (·.slot)).Nodup := by
  have hslots : (numbered jobs).map (·.slot) = List.range' 0 jobs.length := by
    rw [numbered, List.map_map]
    exact List.zipIdx_map_snd 0 jobs
  rw [hslots]
  exact List.nodup_range'

private theorem mem_numbered {jobs : List (Nat × β)} {i : Nat} (hi : i < jobs.length) :
    Job.mk i jobs[i].1 jobs[i].2 ∈ numbered jobs := by
  refine List.mem_map.mpr ⟨(jobs[i], i), ?_, rfl⟩
  rw [List.mk_mem_zipIdx_iff_getElem?, List.getElem?_eq_getElem hi]

/-- In the end each slot holds the result of its job. -/
private theorem fill_arrivals_numbered (jobs : List (Nat × β)) :
    fill (jobs.map fun _ => none) (arrivals (numbered jobs)) = jobs.map fun job => some job.2 := by
  have hperm := arrivals_perm (numbered jobs)
  have hslots : ((arrivals (numbered jobs)).map (·.slot)).Nodup :=
    (hperm.map _).nodup_iff.mpr (nodup_slots_numbered jobs)
  apply List.ext_getElem?
  intro i
  by_cases hi : i < jobs.length
  · have hjob := hperm.mem_iff.mpr (mem_numbered hi)
    rw [getElem?_fill hslots hjob (by rwa [List.length_map]), List.getElem?_map,
      List.getElem?_eq_getElem hi]
    rfl
  · have hle := Nat.not_lt.mp hi
    rw [List.getElem?_eq_none (by rwa [length_fill, List.length_map]),
      List.getElem?_eq_none (by rwa [List.length_map])]

/-- The results of a batch come in the order of its jobs, however long each of them takes. -/
theorem run_fst (jobs : List (Nat × β)) : (run jobs).1 = jobs.map (·.2) := by
  change (fill (jobs.map fun _ => none) (arrivals (numbered jobs))).filterMap id = _
  rw [fill_arrivals_numbered, List.filterMap_map]
  exact congrFun List.filterMap_eq_map jobs

end ComputeNet.Batch
