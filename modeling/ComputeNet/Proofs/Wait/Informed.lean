import ComputeNet.Proofs.Wait.Course
import ComputeNet.Proofs.Wait.Sightings
import ComputeNet.Proofs.World.Stored

/-!
# What a wait has been told

`Informed` ties a wait to the answer of its listing, if one came, and to the changes that have
reached its stream: what it has found is what is found in all of these that it has looked at, in
order, and it is over as soon as that is enough. Every poll, change and closing keeps this, and
only a poll that ends the listing adds an answer to it (`informed_poll`).
-/

namespace ComputeNet

variable {α σ : Type} [Enumeration σ] [DecidableEq σ]

/-- A phase and a stream that agree with the answer of the listing and the changes so far. -/
inductive Informed (r : WaitRequest α σ) :
    WaitPhase α → Option AccountStream → Option (List RawAccount) → List (Address × Bytes) → Prop
  | starting : Informed r .starting none none []
  | listing (endsAt : Nat) : Informed r (.listing endsAt) none none []
  | subscribing (opensAt : Nat) {filters : List Filter} {found : Found α}
      {accounts : List RawAccount} (hfilters : filters ⊆ r.filters)
      (hfound : found = r.foundIn (accounts.map RawAccount.change))
      (hmore : r.isComplete found = false) :
      Informed r (.subscribing opensAt filters found) none (some accounts) []
  | listening {stream : AccountStream} {found : Found α} {accounts : List RawAccount}
      {seen arrived : List (Address × Bytes)} (hfilters : stream.filters ⊆ r.filters)
      (hfound : found = r.foundIn (accounts.map RawAccount.change ++ seen))
      (hmore : r.isComplete found = false) (harrived : arrived = seen ++ stream.pending) :
      Informed r (.listening found) (some stream) (some accounts) arrived
  | failed (error : ClientError) (time : Nat) (listed : Option (List RawAccount))
      (arrived : List (Address × Bytes)) :
      Informed r (.finished (.error error) time) none listed arrived
  | found (time : Nat) {found : Found α} {accounts : List RawAccount}
      {seen arrived : List (Address × Bytes)} (hseen : seen <+: arrived)
      (hfound : found = r.foundIn (accounts.map RawAccount.change ++ seen))
      (hcomplete : r.CompletesWith (accounts.map RawAccount.change) seen) :
      Informed r (.finished (.ok found) time) none (some accounts) arrived

namespace Wait

/-- The wait agrees with the answer of its listing and the changes that have reached its stream. -/
def Informed (w : Wait α σ) (listed : Option (List RawAccount))
    (arrived : List (Address × Bytes)) : Prop :=
  ComputeNet.Informed w.request w.phase w.stream listed arrived

variable {w : Wait α σ} {listed : Option (List RawAccount)} {arrived : List (Address × Bytes)}

/-- A wait that ended well has found enough in what it had been told, and not before. -/
theorem Informed.found_of_outcome? (h : w.Informed listed arrived) {found : Found α}
    (hend : w.outcome? = some (.ok found)) :
    ∃ accounts seen, listed = some accounts ∧ seen <+: arrived ∧
      found = w.request.foundIn (accounts.map RawAccount.change ++ seen) ∧
      w.request.CompletesWith (accounts.map RawAccount.change) seen := by
  obtain ⟨request, deadline, phase, stream, opened, ownFired⟩ := w
  cases h with
  | found time hseen hfound hcomplete =>
    cases hend
    exact ⟨_, _, rfl, hseen, hfound, hcomplete⟩
  | _ => simp [outcome?] at hend

/-- A wait that listens has not found enough in what it has looked at. -/
theorem Informed.exists_stream (h : w.Informed listed arrived) (hstage : w.stage = .listening) :
    ∃ stream accounts seen, w.stream = some stream ∧ stream.filters ⊆ w.request.filters ∧
      listed = some accounts ∧ arrived = seen ++ stream.pending ∧
      ¬ w.request.Enough (w.request.sightings (accounts.map RawAccount.change ++ seen)) := by
  obtain ⟨request, deadline, phase, stream, opened, ownFired⟩ := w
  cases h with
  | listening hfilters hfound hmore harrived =>
    dsimp only at hfound hmore
    refine ⟨_, _, _, rfl, hfilters, rfl, harrived, ?_⟩
    rw [← WaitRequest.isComplete_foundIn_iff, ← hfound, hmore]
    exact Bool.false_ne_true
  | _ => exact absurd hstage (by simp [stage])

private theorem informed_begin (h : w.Informed listed arrived) (s : Surroundings) :
    (w.begin s).Informed listed arrived := by
  obtain ⟨request, deadline, phase, stream, opened, ownFired⟩ := w
  cases h with
  | starting =>
    simp only [begin]
    split
    · exact .failed ..
    · split
      · exact .failed ..
      · exact .listing _
  | listing => exact .listing _
  | subscribing _ hfilters hfound hmore => exact .subscribing _ hfilters hfound hmore
  | listening hfilters hfound hmore harrived => exact .listening hfilters hfound hmore harrived
  | failed => exact .failed ..
  | found _ hseen hfound hcomplete => exact .found _ hseen hfound hcomplete

private theorem informed_heed (h : w.Informed listed arrived) (s : Surroundings) :
    (w.heed s).Informed listed arrived := by
  rw [heed]
  split
  · exact .failed ..
  · exact h

private theorem informed_expire (h : w.Informed listed arrived) (s : Surroundings) :
    (w.expire s).Informed listed arrived := by
  rw [expire]
  split
  · exact .failed ..
  · exact h

/-- At the end of a listing its answer is known. -/
private theorem informed_list (h : w.Informed listed arrived) (s : Surroundings) :
    ∃ listed', (w.list s).Informed listed' arrived ∧ (listed' = listed ∨
      w.stage = .listing ∧ (w.list s).stage ≠ .listing ∧ ∃ accounts, listed' = some accounts ∧
        s.endpoint.listing w.request.filters = .ok accounts) := by
  obtain ⟨request, deadline, phase, stream, opened, ownFired⟩ := w
  cases h with
  | starting => exact ⟨_, .starting, Or.inl rfl⟩
  | listing endsAt =>
    simp only [list]
    split
    · exact ⟨_, .listing endsAt, Or.inl rfl⟩
    · cases hlisting : s.endpoint.listing request.filters with
      | error e => exact ⟨none, .failed .., Or.inl rfl⟩
      | ok accounts =>
        simp only [WaitRequest.lookAll_eq]
        refine ⟨some accounts, ?_, Or.inr ⟨rfl, ?_, accounts, rfl, rfl⟩⟩
        · cases hmore : request.isComplete (request.foundIn (accounts.map RawAccount.change)) with
          | true =>
            refine .found s.now (List.prefix_refl []) (List.append_nil _ ▸ rfl) ⟨?_, ?_⟩
            · rwa [List.append_nil]
            · exact fun earlier hearlier hne => absurd (List.prefix_nil.mp hearlier) hne
          | false =>
            simp only [Bool.false_eq_true, if_false]
            cases s.endpoint.serve .programSubscribe with
            | error e => exact .failed ..
            | ok =>
              have hfilters := Endpoint.effective_subset s.endpoint request.filters
              exact .subscribing _ hfilters rfl hmore
        · split
          · simp [stage, finish]
          · cases s.endpoint.serve .programSubscribe <;> simp [stage, finish]
  | subscribing _ hfilters hfound hmore =>
    exact ⟨_, .subscribing _ hfilters hfound hmore, Or.inl rfl⟩
  | listening hfilters hfound hmore harrived =>
    exact ⟨_, .listening hfilters hfound hmore harrived, Or.inl rfl⟩
  | failed => exact ⟨_, .failed .., Or.inl rfl⟩
  | found _ hseen hfound hcomplete => exact ⟨_, .found _ hseen hfound hcomplete, Or.inl rfl⟩

private theorem informed_subscribe (h : w.Informed listed arrived) (s : Surroundings) :
    (w.subscribe s).Informed listed arrived := by
  obtain ⟨request, deadline, phase, stream, opened, ownFired⟩ := w
  cases h with
  | starting => exact .starting
  | listing => exact .listing _
  | subscribing opensAt hfilters hfound hmore =>
    simp only [subscribe]
    split
    · exact .subscribing _ hfilters hfound hmore
    · refine .listening hfilters ?_ hmore (List.nil_append []).symm
      rwa [List.append_nil]
  | listening hfilters hfound hmore harrived => exact .listening hfilters hfound hmore harrived
  | failed => exact .failed ..
  | found _ hseen hfound hcomplete => exact .found _ hseen hfound hcomplete

private theorem informed_listen (h : w.Informed listed arrived) (s : Surroundings) :
    (w.listen s).Informed listed arrived := by
  obtain ⟨request, deadline, phase, stream, opened, ownFired⟩ := w
  cases h with
  | starting => exact .starting
  | listing => exact .listing _
  | subscribing _ hfilters hfound hmore => exact .subscribing _ hfilters hfound hmore
  | @listening stream _ accounts seen _ hfilters hfound hmore harrived =>
    dsimp only at hfound hmore
    subst hfound harrived
    simp only [listen]
    rcases request.consume_foundIn _ stream.pending hmore with
      ⟨hconsume, hmore'⟩ | ⟨seen', hseen', hcomplete, hconsume⟩
    · simp only [hconsume, Bool.false_eq_true, if_false]
      split
      · exact .failed ..
      · refine .listening hfilters ?_ hmore' (List.append_nil (seen ++ stream.pending)).symm
        rw [List.append_assoc]
    · simp only [hconsume, if_true]
      have hall := WaitRequest.CompletesWith.append request hmore hcomplete
      rw [List.append_assoc]
      exact .found s.now ((List.prefix_append_right_inj seen).mpr hseen') rfl hall
  | failed => exact .failed ..
  | found _ hseen hfound hcomplete => exact .found _ hseen hfound hcomplete

/-- What a wait is told before it looks at its deadline: at the moment at which its listing ends,
the answer of the listing. -/
theorem informed_work (h : w.Informed listed arrived) (s : Surroundings) :
    ∃ listed', (w.work s).Informed listed' arrived ∧ (listed' = listed ∨
      w.stage = .listing ∧ (w.work s).stage ≠ .listing ∧ ∃ accounts, listed' = some accounts ∧
        s.endpoint.listing w.request.filters = .ok accounts) := by
  have hbefore : w.Follows ((w.begin s).heed s) :=
    (follows_begin s w).trans (follows_heed s (w.begin s))
  have hafter : (((w.begin s).heed s).list s).Follows (w.work s) :=
    (follows_subscribe s _).trans (follows_listen s _)
  obtain ⟨listed', hinformed, hlisted⟩ := informed_list (informed_heed (informed_begin h s) s) s
  refine ⟨listed', informed_listen (informed_subscribe hinformed s) s, ?_⟩
  rcases hlisted with heq | ⟨hstage, hstage', accounts, haccounts, hlisting⟩
  · exact Or.inl heq
  · refine Or.inr ⟨hbefore.stage_eq_listing hstage, ?_, accounts, haccounts, ?_⟩
    · intro hend
      exact hstage' (hafter.stage_eq_listing hend)
    · rwa [hbefore.request] at hlisting

/-- A poll adds nothing to what a wait has been told but the answer of its listing, at the moment at
which the listing ends. -/
theorem informed_poll (h : w.Informed listed arrived) (s : Surroundings) :
    ∃ listed', (w.poll s).Informed listed' arrived ∧ (listed' = listed ∨
      w.stage = .listing ∧ (w.poll s).stage ≠ .listing ∧ ∃ accounts, listed' = some accounts ∧
        s.endpoint.listing w.request.filters = .ok accounts) := by
  obtain ⟨listed', hinformed, hlisted⟩ := informed_work h s
  refine ⟨listed', informed_expire hinformed s, hlisted.imp_right ?_⟩
  rintro ⟨hstage, hstage', hrest⟩
  exact ⟨hstage, fun hend => hstage' ((follows_expire s _).stage_eq_listing hend), hrest⟩

private theorem informed_letGo (h : w.Informed listed arrived) :
    w.letGo.Informed listed arrived := by
  rwa [Informed, letGo_request, letGo_phase, letGo_stream]

theorem informed_turn (h : w.Informed listed arrived) (s : Surroundings) :
    ∃ listed', (w.turn s).Informed listed' arrived ∧ (listed' = listed ∨
      w.stage = .listing ∧ (w.turn s).stage ≠ .listing ∧ ∃ accounts, listed' = some accounts ∧
        s.endpoint.listing w.request.filters = .ok accounts) := by
  rw [turn, stage_letGo]
  obtain ⟨listed', hinformed, hlisted⟩ := informed_poll h s
  exact ⟨listed', informed_letGo hinformed, hlisted⟩

theorem informed_notice (h : w.Informed listed arrived) (address : Address) (data : Bytes) :
    (w.notice address data).Informed listed
      (arrived ++ if w.hears data then [(address, data)] else []) := by
  obtain ⟨request, deadline, phase, stream, opened, ownFired⟩ := w
  cases h with
  | starting => exact .starting
  | listing => exact .listing _
  | subscribing _ hfilters hfound hmore => exact .subscribing _ hfilters hfound hmore
  | @listening stream _ accounts seen _ hfilters hfound hmore harrived =>
    subst harrived
    by_cases hpush : (!stream.closed && Filter.allAccept stream.filters data) = true
    all_goals
      refine .listening ?_ hfound hmore ?_
      · simpa [notice, AccountStream.push, hpush] using hfilters
      · simp [AccountStream.push, hears, hpush]
  | failed => exact .failed ..
  | found _ hseen hfound hcomplete =>
    exact .found _ (hseen.trans (List.prefix_append _ _)) hfound hcomplete

theorem informed_closeStream (h : w.Informed listed arrived) :
    w.closeStream.Informed listed arrived := by
  obtain ⟨request, deadline, phase, stream, opened, ownFired⟩ := w
  cases h with
  | starting => exact .starting
  | listing => exact .listing _
  | subscribing _ hfilters hfound hmore => exact .subscribing _ hfilters hfound hmore
  | @listening stream _ _ _ _ hfilters hfound hmore harrived =>
    exact .listening hfilters hfound hmore harrived
  | failed => exact .failed ..
  | found _ hseen hfound hcomplete => exact .found _ hseen hfound hcomplete

end Wait

end ComputeNet
