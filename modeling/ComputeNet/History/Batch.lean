/-!
# Work in batches

A list is worked through in batches. The jobs of a batch run side by side and end after their own
delays, in any order; each puts its result into its own slot, and the batch ends with the last of
them.
-/

namespace ComputeNet.Batch

variable {α β : Type}

/-- A list in pieces of a given size, the last one perhaps shorter. Pieces of size 0 hold one
element too. -/
def split (size : Nat) : List α → List (List α)
  | [] => []
  | a :: as => (a :: as.take (size - 1)) :: split size (as.drop (size - 1))
termination_by as => as.length
decreasing_by rw [List.length_drop, List.length_cons]; omega

/-- A job in a batch: the slot for its result, and how long it takes. -/
structure Job (β : Type) where
  slot : Nat
  delay : Nat
  result : β

/-- The jobs in the order in which they end. -/
def arrivals (jobs : List (Job β)) : List (Job β) :=
  jobs.mergeSort fun a b => a.delay ≤ b.delay

/-- The slots after jobs ended, one after the other. -/
def fill (slots : List (Option β)) (ended : List (Job β)) : List (Option β) :=
  ended.foldl (fun slots job => slots.set job.slot (some job.result)) slots

/-- The results of jobs that run side by side, in the order of the jobs, and how long all of them
take. -/
def run (jobs : List (Nat × β)) : List β × Nat :=
  let numbered := jobs.zipIdx.map fun ((delay, result), slot) => Job.mk slot delay result
  ((fill (jobs.map fun _ => none) (arrivals numbered)).filterMap id,
    (jobs.map (·.1)).foldl max 0)

end ComputeNet.Batch
