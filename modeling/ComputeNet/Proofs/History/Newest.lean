import Mathlib.Data.List.Basic
import ComputeNet.History.Replay

/-!
# Newest first

Putting the newest first leaves what is of one time in its order (`filter_newestBy`). That and the
order of the times say all of it: there is only one such list (`eq_of_filter_eq`). So blocks of
events, each of one time, can be put in order as wholes (`newestBy_flatMap`).
-/

namespace ComputeNet

variable {α β : Type}

/-- The items with the newest first; items of one time stay in order. -/
def newestBy (time : α → Int) (items : List α) : List α :=
  items.mergeSort fun a b => time b ≤ time a

/-- Times do not increase along the list. -/
def NeverNewer (time : α → Int) (items : List α) : Prop :=
  items.Pairwise fun a b => time b ≤ time a

theorem newestBy_perm (time : α → Int) (items : List α) : (newestBy time items).Perm items :=
  List.mergeSort_perm items _

private theorem newer_trans (time : α → Int) (a b c : α) (hab : decide (time b ≤ time a))
    (hbc : decide (time c ≤ time b)) : decide (time c ≤ time a) := by
  simp only [decide_eq_true_eq] at hab hbc ⊢
  omega

private theorem newer_total (time : α → Int) (a b : α) :
    decide (time b ≤ time a) || decide (time a ≤ time b) := by
  simp only [Bool.or_eq_true, decide_eq_true_eq]
  omega

theorem neverNewer_newestBy (time : α → Int) (items : List α) :
    NeverNewer time (newestBy time items) :=
  (List.pairwise_mergeSort (newer_trans time) (newer_total time) items).imp of_decide_eq_true

/-- What is of one time stays in its order. -/
theorem filter_newestBy (time : α → Int) (items : List α) (t : Int) :
    (newestBy time items).filter (time · = t) = items.filter (time · = t) := by
  have hordered : (items.filter (time · = t)).Pairwise fun a b => decide (time b ≤ time a) := by
    apply List.pairwise_of_forall_mem_list
    intro a ha b hb
    have hta : time a = t := by simpa using (List.mem_filter.mp ha).2
    have htb : time b = t := by simpa using (List.mem_filter.mp hb).2
    simp [hta, htb]
  have hsublist := List.sublist_mergeSort (newer_trans time) (newer_total time) hordered
    List.filter_sublist
  have hfiltered := hsublist.filter (time · = t)
  simp only [List.filter_filter, Bool.and_self] at hfiltered
  have hlength := ((newestBy_perm time items).filter (time · = t)).length_eq
  exact (hfiltered.eq_of_length hlength.symm).symm

/-- Lists in which times do not increase are the same if the items of each time are. -/
theorem eq_of_filter_eq {time : α → Int} {items items' : List α} (h : NeverNewer time items)
    (h' : NeverNewer time items')
    (hfilter : ∀ t, items.filter (time · = t) = items'.filter (time · = t)) : items = items' := by
  induction items generalizing items' with
  | nil =>
    cases items' with
    | nil => rfl
    | cons b items' => exact absurd (hfilter (time b)) (by simp)
  | cons a items ih =>
    cases items' with
    | nil => exact absurd (hfilter (time a)) (by simp)
    | cons b items' =>
      obtain ⟨ha, hitems⟩ := List.pairwise_cons.mp h
      obtain ⟨hb, hitems'⟩ := List.pairwise_cons.mp h'
      -- Each of the two heads is the newest of its list and stands in the other list too.
      have hmem : a ∈ b :: items' := by
        have hfirst : a ∈ (a :: items).filter (time · = time a) := by simp
        rw [hfilter] at hfirst
        exact (List.mem_filter.mp hfirst).1
      have hmem' : b ∈ a :: items := by
        have hfirst : b ∈ (b :: items').filter (time · = time b) := by simp
        rw [← hfilter] at hfirst
        exact (List.mem_filter.mp hfirst).1
      have hle : time a ≤ time b := by
        rcases List.mem_cons.mp hmem with rfl | hmem
        · exact Int.le_refl _
        · exact hb a hmem
      have hle' : time b ≤ time a := by
        rcases List.mem_cons.mp hmem' with rfl | hmem'
        · exact Int.le_refl _
        · exact ha b hmem'
      have htime : time b = time a := Int.le_antisymm hle' hle
      have hheads := hfilter (time a)
      rw [List.filter_cons_of_pos (by simp), List.filter_cons_of_pos (by simp [htime])] at hheads
      obtain ⟨rfl, htails⟩ := List.cons.inj hheads
      rw [ih hitems hitems' fun t => ?_]
      by_cases ht : time a = t
      · rw [← ht]
        exact htails
      · have hother := hfilter t
        rwa [List.filter_cons_of_neg (by simpa using ht),
          List.filter_cons_of_neg (by simpa using ht)] at hother

/-- Of blocks that are of one time each, those of a given time are left whole. -/
theorem filter_flatMap_of_time {time : α → Int} {time' : β → Int} {block : α → List β}
    (h : ∀ a, ∀ b ∈ block a, time' b = time a) (items : List α) (t : Int) :
    (items.flatMap block).filter (time' · = t) = (items.filter (time · = t)).flatMap block := by
  induction items with
  | nil => rfl
  | cons a items ih =>
    rw [List.flatMap_cons, List.filter_append, ih]
    by_cases ht : time a = t
    · have hall : (block a).filter (time' · = t) = block a := by
        apply List.filter_eq_self.mpr
        intro b hb
        simp [h a b hb, ht]
      rw [hall, List.filter_cons_of_pos (by simpa using ht), List.flatMap_cons]
    · have hnone : (block a).filter (time' · = t) = [] := by
        apply List.filter_eq_nil_iff.mpr
        intro b hb
        simp [h a b hb, ht]
      rw [hnone, List.filter_cons_of_neg (by simpa using ht), List.nil_append]

/-- Putting the newest first moves blocks that are of one time each as wholes. -/
theorem newestBy_flatMap {time : α → Int} {time' : β → Int} {block : α → List β}
    (h : ∀ a, ∀ b ∈ block a, time' b = time a) (items : List α) :
    newestBy time' (items.flatMap block) = (newestBy time items).flatMap block := by
  apply eq_of_filter_eq (neverNewer_newestBy time' _)
  · rw [NeverNewer, List.pairwise_flatMap]
    constructor
    · intro a _
      apply List.pairwise_of_forall_mem_list
      intro b hb c hc
      exact Int.le_of_eq ((h a c hc).trans (h a b hb).symm)
    · refine (neverNewer_newestBy time items).imp fun {a a'} hle b hb c hc => ?_
      rw [h a b hb, h a' c hc]
      exact hle
  · intro t
    rw [filter_newestBy, filter_flatMap_of_time h, filter_flatMap_of_time h, filter_newestBy]

/-- Of two items of one time the one that comes first is the one that came first before. -/
theorem sublist_of_newestBy {time : α → Int} {items : List α} {a b : α}
    (h : [a, b].Sublist (newestBy time items)) (htime : time a = time b) :
    [a, b].Sublist items := by
  have hfiltered := h.filter (time · = time b)
  rw [filter_newestBy] at hfiltered
  have hpair : [a, b].filter (time · = time b) = [a, b] := by simp [htime]
  rw [hpair] at hfiltered
  exact hfiltered.trans List.filter_sublist

end ComputeNet
