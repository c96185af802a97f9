import Mathlib.Data.List.Basic
import Mathlib.Data.List.Induction
import ComputeNet.Status.Wait

/-!
# Sightings

What a wait makes of the accounts that it looks at. `sightings` lists the targets that were seen
with the wanted status, in order. The records that the wait keeps are the latest ones of that list
(`lookup_foundIn`), and they are enough as soon as the list shows enough targets
(`isComplete_foundIn_iff`). `consume` stops at the first change with which they are
(`consume_foundIn`).
-/

namespace ComputeNet

/-- An account as a change of it would report it. -/
def RawAccount.change (a : RawAccount) : Address × Bytes := (a.address, a.data)

namespace Found

variable {α : Type}

@[simp] theorem lookup_put (found : Found α) (key other : EntityKey) (a : α) :
    (found.put key a).lookup other = if other = key then some a else found.lookup other := by
  rw [put, List.lookup_cons]
  by_cases h : other = key
  · simp [h]
  · simp only [beq_eq_false_iff_ne.mpr h, h, if_false]
    induction found with
    | nil => rfl
    | cons p found ih =>
      by_cases hp : p.1 = key
      · rw [List.filter_cons_of_neg (by simpa using hp), ih, List.lookup_cons,
          beq_eq_false_iff_ne.mpr (hp ▸ h)]
      · rw [List.filter_cons_of_pos (by simpa using hp), List.lookup_cons, List.lookup_cons, ih]

private theorem nodup_keys_put (found : Found α) (key : EntityKey) (a : α)
    (h : (found.map Prod.fst).Nodup) : ((found.put key a).map Prod.fst).Nodup := by
  rw [put, List.map_cons, List.nodup_cons]
  constructor
  · intro hmem
    obtain ⟨p, hp, rfl⟩ := List.mem_map.mp hmem
    simpa using (List.mem_filter.mp hp).2
  · exact h.sublist (List.filter_sublist.map Prod.fst)

/-- A record that is kept is the one that looking up its key gives. -/
private theorem mem_iff_lookup {found : Found α} (h : (found.map Prod.fst).Nodup) {key : EntityKey}
    {a : α} : (key, a) ∈ found ↔ found.lookup key = some a := by
  induction found with
  | nil => simp
  | cons p found ih =>
    obtain ⟨hp, hnodup⟩ := List.nodup_cons.mp h
    rw [List.lookup_cons, List.mem_cons]
    by_cases hkey : key = p.1
    · have hnot : (key, a) ∉ found := fun hmem => hp (hkey ▸ List.mem_map_of_mem hmem)
      simp only [hkey, beq_self_eq_true, Option.some.injEq]
      rw [← hkey]
      constructor
      · rintro (rfl | hmem)
        · rfl
        · exact absurd hmem hnot
      · rintro rfl
        exact Or.inl (by rw [hkey])
    · rw [beq_eq_false_iff_ne.mpr hkey, ← ih hnodup]
      constructor
      · rintro (rfl | hmem)
        · exact absurd rfl hkey
        · exact hmem
      · exact Or.inr

end Found

/-- The latest record that some sightings have of a key. -/
def latest {α : Type} (sightings : List (EntityKey × α)) (key : EntityKey) : Option α :=
  sightings.reverse.lookup key

theorem latest_append_singleton {α : Type} (sightings : List (EntityKey × α))
    (p : EntityKey × α) (key : EntityKey) :
    latest (sightings ++ [p]) key = if key = p.1 then some p.2 else latest sightings key := by
  rw [latest, List.reverse_append, List.reverse_singleton, List.singleton_append, List.lookup_cons]
  by_cases h : key = p.1
  · simp [h]
  · simp only [beq_eq_false_iff_ne.mpr h, h, if_false]
    rfl

theorem latest_isSome_iff {α : Type} {sightings : List (EntityKey × α)} {key : EntityKey} :
    (latest sightings key).isSome ↔ ∃ a, (key, a) ∈ sightings := by
  induction sightings using List.reverseRecOn with
  | nil => simp [latest]
  | append_singleton sightings p ih =>
    rw [latest_append_singleton]
    by_cases h : key = p.1
    · simp only [h, if_true, Option.isSome_some, true_iff]
      exact ⟨p.2, by simp⟩
    · simp only [h, if_false, ih, List.mem_append, List.mem_singleton]
      constructor
      · rintro ⟨a, ha⟩
        exact ⟨a, Or.inl ha⟩
      · rintro ⟨a, ha | rfl⟩
        · exact ⟨a, ha⟩
        · exact absurd rfl h

theorem mem_of_latest {α : Type} {sightings : List (EntityKey × α)} {key : EntityKey} {a : α}
    (h : latest sightings key = some a) : (key, a) ∈ sightings := by
  obtain ⟨before, after, heq, -⟩ := List.lookup_eq_some_iff.mp h
  rw [← List.mem_reverse, heq]
  simp

namespace Watch

variable {α σ : Type} [DecidableEq σ]

/-- A watch observes an account with the wanted status under the key of its record. -/
theorem observe_eq_some_iff {w : Watch α σ} {status : σ} {address : Address} {data : Bytes}
    {key : EntityKey} {a : α} :
    w.observe status address data = some (key, a) ↔
      w.decode data = .ok a ∧ w.statusOf a = status ∧
        (w.keyOf a).getD (.address address) = key := by
  rw [observe]
  cases hdecode : w.decode data with
  | error e => simp
  | ok b =>
    by_cases hstatus : w.statusOf b = status
    · simp only [hstatus, if_true, Option.some.injEq, Prod.mk.injEq, Except.ok.injEq]
      constructor
      · rintro ⟨hkey, rfl⟩
        exact ⟨rfl, hstatus, hkey⟩
      · rintro ⟨rfl, -, hkey⟩
        exact ⟨hkey, rfl⟩
    · simp only [hstatus, if_false, reduceCtorEq, Except.ok.injEq, false_iff]
      rintro ⟨rfl, hb, -⟩
      exact hstatus hb

end Watch

namespace WaitRequest

variable {α σ : Type} [DecidableEq σ] (r : WaitRequest α σ)

/-- What a change shows: a target with the wanted status. -/
def sight (c : Address × Bytes) : Option (EntityKey × α) :=
  (r.watch.observe r.status c.1 c.2).filter fun p => p.1 ∈ r.targets

/-- The targets that some changes show with the wanted status, in order. -/
def sightings (changes : List (Address × Bytes)) : List (EntityKey × α) :=
  changes.filterMap r.sight

/-- What is found when some changes have been looked at, one after the other. -/
def foundIn (changes : List (Address × Bytes)) : Found α :=
  changes.foldl (fun found c => r.look found c.1 c.2) []

theorem sight_eq_some_iff {c : Address × Bytes} {key : EntityKey} {a : α} :
    r.sight c = some (key, a) ↔
      key ∈ r.targets ∧ r.watch.observe r.status c.1 c.2 = some (key, a) := by
  rw [sight, Option.filter_eq_some_iff, decide_eq_true_eq]
  exact and_comm

theorem sightings_append (changes changes' : List (Address × Bytes)) :
    r.sightings (changes ++ changes') = r.sightings changes ++ r.sightings changes' :=
  List.filterMap_append

theorem mem_sightings_iff {changes : List (Address × Bytes)} {key : EntityKey} {a : α} :
    (key, a) ∈ r.sightings changes ↔ key ∈ r.targets ∧
      ∃ c ∈ changes, r.watch.observe r.status c.1 c.2 = some (key, a) := by
  simp only [sightings, List.mem_filterMap, sight_eq_some_iff]
  constructor
  · rintro ⟨c, hc, htarget, hobserve⟩
    exact ⟨htarget, c, hc, hobserve⟩
  · rintro ⟨htarget, c, hc, hobserve⟩
    exact ⟨c, hc, htarget, hobserve⟩

/-- Looking at an account keeps what it shows. -/
theorem look_eq (found : Found α) (c : Address × Bytes) :
    r.look found c.1 c.2 =
      match r.sight c with
      | some (key, a) => found.put key a
      | none => found := by
  rw [look, sight]
  cases r.watch.observe r.status c.1 c.2 with
  | none => rfl
  | some p => by_cases h : p.1 ∈ r.targets <;> simp [h, Option.filter]

theorem foundIn_append_singleton (changes : List (Address × Bytes)) (c : Address × Bytes) :
    r.foundIn (changes ++ [c]) = r.look (r.foundIn changes) c.1 c.2 := by
  simp [foundIn]

theorem lookAll_eq (accounts : List RawAccount) :
    r.lookAll accounts = r.foundIn (accounts.map RawAccount.change) := by
  rw [lookAll, foundIn, List.foldl_map]
  rfl

/-- What is kept of a key is its latest sighting. -/
theorem lookup_foundIn (changes : List (Address × Bytes)) (key : EntityKey) :
    (r.foundIn changes).lookup key = latest (r.sightings changes) key := by
  induction changes using List.reverseRecOn with
  | nil => rfl
  | append_singleton changes c ih =>
    rw [foundIn_append_singleton, look_eq, sightings_append]
    cases hsight : r.sight c with
    | none => simpa [sightings, hsight] using ih
    | some p => simp [sightings, hsight, latest_append_singleton, ih]

/-- The latest sighting of a key is that of the last change that shows it. -/
theorem exists_of_latest {changes : List (Address × Bytes)} {key : EntityKey} {a : α}
    (h : latest (r.sightings changes) key = some a) :
    ∃ before c after, changes = before ++ c :: after ∧ r.sight c = some (key, a) ∧
      ∀ d ∈ after, ∀ b, r.sight d ≠ some (key, b) := by
  induction changes using List.reverseRecOn with
  | nil => cases h
  | append_singleton changes c ih =>
    have later (hc : ∀ b, r.sight c ≠ some (key, b))
        (hchanges : latest (r.sightings changes) key = some a) :
        ∃ before d after, changes ++ [c] = before ++ d :: after ∧ r.sight d = some (key, a) ∧
          ∀ e ∈ after, ∀ b, r.sight e ≠ some (key, b) := by
      obtain ⟨before, d, after, rfl, hd, hafter⟩ := ih hchanges
      refine ⟨before, d, after ++ [c], by rw [List.append_assoc, List.cons_append], hd, ?_⟩
      intro e he
      rcases List.mem_append.mp he with he | he
      · exact hafter e he
      · rw [List.mem_singleton.mp he]
        exact hc
    rw [sightings_append] at h
    cases hsight : r.sight c with
    | none =>
      apply later (by simp [hsight])
      simpa [sightings, hsight] using h
    | some p =>
      have hlast : r.sightings [c] = [p] := by simp [sightings, hsight]
      rw [hlast, latest_append_singleton] at h
      by_cases hkey : key = p.1
      · rw [if_pos hkey, Option.some.injEq] at h
        exact ⟨changes, c, [], rfl, by rw [hsight, hkey, ← h], by simp⟩
      · rw [if_neg hkey] at h
        refine later (fun b hb => hkey ?_) h
        rw [hsight, Option.some.injEq] at hb
        rw [hb]

theorem nodup_keys_foundIn (changes : List (Address × Bytes)) :
    ((r.foundIn changes).map Prod.fst).Nodup := by
  induction changes using List.reverseRecOn with
  | nil => exact List.nodup_nil
  | append_singleton changes c ih =>
    rw [foundIn_append_singleton, look_eq]
    cases r.sight c with
    | none => exact ih
    | some p => exact Found.nodup_keys_put _ p.1 p.2 ih

theorem mem_foundIn_iff {changes : List (Address × Bytes)} {key : EntityKey} {a : α} :
    (key, a) ∈ r.foundIn changes ↔ latest (r.sightings changes) key = some a := by
  rw [Found.mem_iff_lookup (r.nodup_keys_foundIn changes), lookup_foundIn]

theorem foundIn_eq_nil_iff {changes : List (Address × Bytes)} :
    r.foundIn changes = [] ↔ r.sightings changes = [] := by
  induction changes using List.reverseRecOn with
  | nil => simp [foundIn, sightings]
  | append_singleton changes c ih =>
    rw [foundIn_append_singleton, look_eq, sightings_append]
    cases hsight : r.sight c with
    | none => simpa [sightings, hsight] using ih
    | some p => simp [sightings, hsight, Found.put]

/-- The sightings are of enough targets: of any, or of each. -/
def Enough (sightings : List (EntityKey × α)) : Prop :=
  match r.mode with
  | .first => sightings ≠ []
  | .all => ∀ key ∈ r.targets, ∃ a, (key, a) ∈ sightings

omit [DecidableEq σ] in
/-- To have seen nothing is not enough for a wait that has targets. -/
theorem not_enough_nil (htargets : r.targets ≠ []) : ¬ r.Enough [] := by
  rw [Enough]
  cases r.mode with
  | first => exact fun h => h rfl
  | all =>
    obtain ⟨key, hkey⟩ := List.exists_mem_of_ne_nil r.targets htargets
    intro hall
    obtain ⟨a, ha⟩ := hall key hkey
    cases ha

/-- Enough has been found as soon as the changes show enough targets. -/
theorem isComplete_foundIn_iff (changes : List (Address × Bytes)) :
    r.isComplete (r.foundIn changes) = true ↔ r.Enough (r.sightings changes) := by
  rw [isComplete, Enough]
  cases r.mode with
  | first => simp [foundIn_eq_nil_iff]
  | all => simp only [List.all_eq_true, lookup_foundIn, latest_isSome_iff]

/-- What was enough stays enough when more changes are looked at. -/
private theorem isComplete_foundIn_append (changes changes' : List (Address × Bytes))
    (h : r.isComplete (r.foundIn changes) = true) :
    r.isComplete (r.foundIn (changes ++ changes')) = true := by
  rw [isComplete_foundIn_iff, Enough] at h ⊢
  rw [sightings_append]
  cases hmode : r.mode with
  | first =>
    rw [hmode] at h
    exact fun hnil => h (List.append_eq_nil_iff.mp hnil).1
  | all =>
    rw [hmode] at h
    intro key hkey
    obtain ⟨a, ha⟩ := h key hkey
    exact ⟨a, List.mem_append_left _ ha⟩

/-- The changes that were looked at after a listing are enough with the last of them, and not
before. -/
def CompletesWith (listed seen : List (Address × Bytes)) : Prop :=
  r.isComplete (r.foundIn (listed ++ seen)) = true ∧
    ∀ earlier, earlier <+: seen → earlier ≠ seen →
      r.isComplete (r.foundIn (listed ++ earlier)) = false

/-- What is enough with the next changes, after not having been enough with the first, is enough
with all of them and not before. -/
theorem CompletesWith.append {listed seen seen' : List (Address × Bytes)}
    (hmore : r.isComplete (r.foundIn (listed ++ seen)) = false)
    (h : r.CompletesWith (listed ++ seen) seen') : r.CompletesWith listed (seen ++ seen') := by
  constructor
  · rw [← List.append_assoc]
    exact h.1
  · intro earlier hearlier hne
    rcases List.prefix_or_prefix_of_prefix hearlier (List.prefix_append seen seen') with hle | hle
    · obtain ⟨rest, rfl⟩ := hle
      by_contra hcomplete
      rw [Bool.not_eq_false] at hcomplete
      have henough := r.isComplete_foundIn_append (listed ++ earlier) rest hcomplete
      rw [List.append_assoc, hmore] at henough
      exact Bool.false_ne_true henough
    · obtain ⟨rest, rfl⟩ := hle
      have hrest : rest <+: seen' := (List.prefix_append_right_inj seen).mp hearlier
      have hbefore := h.2 rest hrest fun heq => hne (heq ▸ rfl)
      rwa [List.append_assoc] at hbefore

/-- As long as not enough has been found, looking at a change either is enough or goes on. -/
private theorem consume_cons (changes pending : List (Address × Bytes)) (c : Address × Bytes)
    (h : r.isComplete (r.foundIn changes) = false) :
    Wait.consume r (r.foundIn changes) (c :: pending) =
      if r.isComplete (r.foundIn (changes ++ [c])) then (r.foundIn (changes ++ [c]), true)
      else Wait.consume r (r.foundIn (changes ++ [c])) pending := by
  obtain ⟨address, data⟩ := c
  rw [foundIn_append_singleton, Wait.consume, look]
  cases r.watch.observe r.status address data with
  | none => simp [h]
  | some p =>
    by_cases hp : p.1 ∈ r.targets
    · simp only [hp, if_true]
    · simp [hp, h]

/-- The changes that have come are looked at up to the first with which enough has been found, or,
if there is none, up to the last. -/
theorem consume_foundIn (changes pending : List (Address × Bytes))
    (h : r.isComplete (r.foundIn changes) = false) :
    (Wait.consume r (r.foundIn changes) pending = (r.foundIn (changes ++ pending), false) ∧
        r.isComplete (r.foundIn (changes ++ pending)) = false) ∨
      ∃ seen, seen <+: pending ∧ r.CompletesWith changes seen ∧
        Wait.consume r (r.foundIn changes) pending = (r.foundIn (changes ++ seen), true) := by
  induction pending generalizing changes with
  | nil =>
    rw [List.append_nil]
    exact Or.inl ⟨rfl, h⟩
  | cons c pending ih =>
    rw [consume_cons r changes pending c h]
    cases hc : r.isComplete (r.foundIn (changes ++ [c])) with
    | true =>
      refine Or.inr ⟨[c], by simp, ⟨hc, ?_⟩, rfl⟩
      intro earlier hearlier hne
      cases earlier with
      | nil => simpa using h
      | cons d earlier =>
        obtain ⟨rfl, hrest⟩ := List.cons_prefix_cons.mp hearlier
        exact absurd (List.prefix_nil.mp hrest ▸ rfl) hne
    | false =>
      rcases ih (changes ++ [c]) hc with ⟨hconsume, hmore⟩ | ⟨seen, hseen, hcomplete, hconsume⟩
      · left
        rw [List.append_assoc] at hconsume hmore
        exact ⟨hconsume, hmore⟩
      · refine Or.inr ⟨c :: seen, List.cons_prefix_cons.mpr ⟨rfl, hseen⟩, ⟨?_, ?_⟩, ?_⟩
        · simpa using hcomplete.1
        · intro earlier hearlier hne
          cases earlier with
          | nil => simpa using h
          | cons d earlier =>
            obtain ⟨rfl, hrest⟩ := List.cons_prefix_cons.mp hearlier
            have hbefore := hcomplete.2 earlier hrest fun heq => hne (heq ▸ rfl)
            simpa using hbefore
        · simpa using hconsume

end WaitRequest

end ComputeNet
