import Mathlib.Tactic.Tauto
import ComputeNet.Proofs.Wait.Course

/-!
# Tokens of a world

A token that a caller has was not made from another one, and the own token of a wait is a child of
the one that the wait was given (`parent?`). Whoever fires a token fires its children with it, and
nothing else (`isFired_fire_iff`). So the tokens that waits fire when they are over reach neither a
caller nor another wait (`isFired_release_iff`): a caller hears of nothing but what callers fire
(`isFired_given_play_iff`).
-/

namespace ComputeNet.World

/-- The token that a token was made from. -/
def parent? (w : World) : AnyToken → Option AnyToken
  | .given _ => none
  | .own n => (w.waitAt? n).bind fun e => e.wait.request.token.map .given

/-- The token itself was fired. -/
def hasFired (w : World) : AnyToken → Bool
  | .given token => decide (token ∈ w.fired)
  | .own n => (w.waitAt? n).any (·.wait.ownFired)

/-- The token was fired, or the one that it was made from. -/
def isFired (w : World) (t : AnyToken) : Bool := w.hasFired t || (w.parent? t).any w.hasFired

variable {w : World} {t t' : AnyToken} {n : Nat}

/-- A wait is called off exactly if its own token was fired in one of these ways. -/
private theorem isFired_own {e : EntityWait} (h : w.waitAt? n = some e) :
    w.isFired (.own n) = e.wait.isCalledOff w.fired := by
  rw [isFired, hasFired, parent?, h, Option.any_some, Option.bind_some, Option.any_map]
  rfl

theorem isFired_given (w : World) (token : Token) :
    w.isFired (.given token) = decide (token ∈ w.fired) := Bool.or_false _

/-! ## To fire a token -/

theorem waitAt?_fireOwn (w : World) (n m : Nat) :
    (w.fire (.own n)).waitAt? m =
      if m = n then (w.waitAt? m).map (·.modify (·.fireOwn)) else w.waitAt? m := by
  have hentries (entries : List WaitEntry) : ((fireOwn n entries).reverse[m]?.map (·.wait)) =
      if m = n then (entries.reverse[m]?.map (·.wait)).map (·.modify (·.fireOwn))
      else entries.reverse[m]?.map (·.wait) := by
    induction entries with
    | nil => split <;> rfl
    | cons e entries ih =>
      rw [fireOwn]
      by_cases hlength : entries.length = n
      · rw [if_pos hlength, getElem?_reverse_cons, getElem?_reverse_cons, hlength]
        by_cases hm : m = n
        · simp only [if_pos hm, Option.map_some]
        · simp only [if_neg hm]
      · rw [if_neg hlength, getElem?_reverse_cons, getElem?_reverse_cons, length_fireOwn]
        by_cases hm : m = entries.length
        · have hne : m ≠ n := hm ▸ hlength
          rw [if_pos hm, if_pos hm, if_neg hne]
        · rw [if_neg hm, if_neg hm, ih]
  exact hentries w.waits

/-- To fire a token makes no token from another one. -/
private theorem parent?_fire (w : World) (t t' : AnyToken) :
    (w.fire t).parent? t' = w.parent? t' := by
  cases t' with
  | given token => rfl
  | own m =>
    cases t with
    | given token => rfl
    | own n =>
      rw [parent?, parent?, waitAt?_fireOwn]
      split
      · rw [Option.bind_map]
        rfl
      · rfl

theorem hasFired_fire (ht : ∀ n, t = .own n → n < w.waits.length) (t' : AnyToken) :
    (w.fire t).hasFired t' = (decide (t' = t) || w.hasFired t') := by
  cases t with
  | given token =>
    cases t' with
    | given token' => simp [fire, hasFired]
    | own m => simp [fire, hasFired, waitAt?]
  | own n =>
    cases t' with
    | given token' => rfl
    | own m =>
      rw [hasFired, hasFired, waitAt?_fireOwn]
      by_cases hm : m = n
      · subst hm
        have hlt : m < w.waits.reverse.length := by
          rw [List.length_reverse]
          exact ht m rfl
        simp [waitAt?, List.getElem?_eq_getElem hlt, EntityWait.modify, Wait.fireOwn]
      · simp [hm]

/-- Whoever fires a token fires its children with it, and nothing else. -/
theorem isFired_fire_iff (ht : ∀ n, t = .own n → n < w.waits.length) :
    (w.fire t).isFired t' = true ↔
      w.isFired t' = true ∨ t' = t ∨ w.parent? t' = some t := by
  rw [isFired, isFired, parent?_fire, hasFired_fire ht]
  cases w.parent? t' with
  | none => simp [or_comm]
  | some parent =>
    simp only [Option.any_some, hasFired_fire ht, Bool.or_eq_true, decide_eq_true_eq,
      Option.some.injEq]
    tauto

/-! ## The tokens that waits fire -/

/-- No token is made from the own token of a wait. -/
private theorem parent?_ne_own (w : World) (t : AnyToken) (n : Nat) :
    w.parent? t ≠ some (.own n) := by
  cases t with
  | given token => simp [parent?]
  | own m => simp [parent?, Option.bind_eq_some_iff]

theorem mem_overNumbers_iff {entries : List WaitEntry} : n ∈ overNumbers entries ↔
    ∃ e, entries.reverse[n]? = some e ∧ e.wait.wait.isFinished = true := by
  induction entries with
  | nil => simp [overNumbers]
  | cons e entries ih =>
    rw [overNumbers, getElem?_reverse_cons]
    by_cases hn : n = entries.length
    · subst hn
      have hnot : entries.length ∉ overNumbers entries :=
        fun h => Nat.lt_irrefl _ (lt_of_mem_overNumbers h)
      by_cases hover : e.wait.wait.isFinished = true <;> simp [hover, hnot]
    · by_cases hover : e.wait.wait.isFinished = true <;> simp [hover, hn, ih]

private theorem isFired_foldl_fire_own {numbers : List Nat}
    (h : ∀ n ∈ numbers, n < w.waits.length) :
    (numbers.foldl (fun w n => w.fire (.own n)) w).isFired t = true ↔
      w.isFired t = true ∨ ∃ n ∈ numbers, t = .own n := by
  induction numbers generalizing w with
  | nil => simp
  | cons n numbers ih =>
    obtain ⟨hn, hrest⟩ := List.forall_mem_cons.mp h
    have hthere : ∀ m, AnyToken.own n = .own m → m < w.waits.length := by
      rintro m ⟨⟩
      exact hn
    have hlength : ∀ m ∈ numbers, m < (w.fire (.own n)).waits.length := by
      rw [fire, length_fireOwn]
      exact hrest
    rw [List.foldl_cons, ih hlength, isFired_fire_iff hthere]
    simp [parent?_ne_own, or_assoc]

/-- When the waits that are over fire their tokens, no other tokens are fired. -/
theorem isFired_release_iff : w.release.isFired t = true ↔ w.isFired t = true ∨
    ∃ n e, t = .own n ∧ w.waitAt? n = some e ∧ e.wait.isFinished = true := by
  rw [release, isFired_foldl_fire_own fun n hn => lt_of_mem_overNumbers hn]
  refine or_congr_right ?_
  constructor
  · rintro ⟨n, hn, rfl⟩
    obtain ⟨e, he, hover⟩ := mem_overNumbers_iff.mp hn
    exact ⟨n, e.wait, rfl, by rw [waitAt?, he]; rfl, hover⟩
  · rintro ⟨n, e, rfl, he, hover⟩
    obtain ⟨entry, hentry, rfl⟩ := Option.map_eq_some_iff.mp he
    exact ⟨n, mem_overNumbers_iff.mpr ⟨entry, hentry, hover⟩, rfl⟩

/-! ## Tokens in the course of a play -/

private theorem Move.mem_fires_iff {m : Move} {token : Token} :
    token ∈ m.fires ↔ m = .happen (.fire token) := by
  cases m with
  | settle => simp [Move.fires]
  | happen h => cases h <;> simp [Move.fires, eq_comm]

/-- The token of a caller is fired by callers only. -/
theorem isFired_given_play_iff {moves : List Move} {token : Token} :
    (w.play moves).isFired (.given token) = true ↔
      w.isFired (.given token) = true ∨ .happen (.fire token) ∈ moves := by
  induction moves generalizing w with
  | nil => simp
  | cons m moves ih =>
    rw [play_cons, ih, isFired_given, isFired_given, fired_act, decide_eq_true_eq,
      decide_eq_true_eq, List.mem_append, Move.mem_fires_iff, List.mem_cons, eq_comm]
    tauto

/-- A wait that is on its course has its own token fired with the one that it was given, or when it
is over. -/
theorem isFired_own_iff {kind : EntityKind} {wait : Wait kind.Record kind.Status}
    (h : w.waitAt? n = some ⟨kind, wait⟩) (hlets : wait.LetsGo) :
    w.isFired (.own n) = true ↔
      wait.request.isCalledOff w.fired = true ∨ w.outcomeAt? n ≠ none := by
  have hown : wait.ownFired = wait.outcome?.isSome :=
    hlets.trans (Wait.isFinished_eq_isSome wait)
  rw [isFired_own h, Wait.isCalledOff, hown, Bool.or_eq_true, or_comm, outcomeAt?, h]
  simp [Option.isSome_iff_ne_none]

end ComputeNet.World
