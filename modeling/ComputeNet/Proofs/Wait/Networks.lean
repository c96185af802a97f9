import ComputeNet.Proofs.Wait.Answer

/-!
# Whose records a wait answers with

Agents, sessions and tasks sit at addresses that are derived from their networks and slots. A client
reads them there (`SlotKind.get`), but a wait knows them by their slots alone, which the networks of
a program number alike. So a wait answers for a slot with the last account that it was shown for it,
of whichever network that is (`source_of_outcomeAt?`).
-/

namespace ComputeNet

/-- The kinds of accounts that are known by their slots. -/
inductive SlotKind where
  | agent
  | session
  | task

namespace SlotKind

/-- The kind among all kinds. -/
def kind : SlotKind → EntityKind
  | .agent => .agent
  | .session => .session
  | .task => .task

/-- The slot in a record. -/
def slotOf : (k : SlotKind) → k.kind.Record → UInt64
  | .agent, a => Agent.agentSlotId a
  | .session, s => Session.sessionSlotId s
  | .task, t => Task.taskSlotId t

/-- The account in a slot of a network. -/
def derivation : SlotKind → Address → UInt64 → Derivation
  | .agent => .agent
  | .session => .session
  | .task => .task

/-- What a client reads in a slot. -/
def get : (k : SlotKind) → Client → Endpoint → UInt64 → Except ClientError k.kind.Record
  | .agent, c, e, slot => c.agent e slot
  | .session, c, e, slot => c.session e slot
  | .task, c, e, slot => c.task e slot

/-- Where the account in a slot sits in the network of a client. -/
def home (k : SlotKind) (c : Client) (slot : UInt64) : Address :=
  c.addressOf (k.derivation c.network slot)

/-- What a client waits for when it waits for slots. -/
def request (k : SlotKind) (slots : List UInt64) (status : k.kind.Status) (mode : WaitMode)
    (token : Option Token) : WaitRequest k.kind.Record k.kind.Status where
  watch := k.kind.watch
  targets := slots.map .slot
  status
  mode
  token

/-- A change shows a record of a slot with a status. -/
def Shows (k : SlotKind) (status : k.kind.Status) (slot : UInt64) (a : k.kind.Record)
    (c : Address × Bytes) : Prop :=
  k.kind.watch.decode c.2 = .ok a ∧ k.kind.watch.statusOf a = status ∧ k.slotOf a = slot

/-- Each account of the kind sits at the address that is derived from some network and the slot in
its record. -/
def Placed (k : SlotKind) (program : Address) (accounts : List RawAccount) : Prop :=
  ∀ account ∈ accounts, ∀ a, k.kind.watch.decode account.data = .ok a →
    ∃ network, account.address = (k.derivation network (k.slotOf a)).address program

variable {k : SlotKind}

private theorem keyOf_eq (a : k.kind.Record) :
    k.kind.watch.keyOf a = some (.slot (k.slotOf a)) := by
  cases k <;> rfl

/-- A client reads the account that sits where the slot is derived for its own network. -/
private theorem get_eq_ok {c : Client} {e : Endpoint} {slot : UInt64} {account : RawAccount}
    {a : k.kind.Record} (hserve : e.serve .getAccount = .ok ())
    (haccount : account ∈ e.ledger.accounts) (haddress : account.address = k.home c slot)
    (hdecode : k.kind.watch.decode account.data = .ok a) : k.get c e slot = .ok a := by
  have hfetch : e.account (k.home c slot) = .ok (some account) := by
    have hfind := (e.ledger.account?_eq_some_iff).mpr ⟨haccount, haddress⟩
    rw [Endpoint.account, hserve, hfind]
    rfl
  have hread {α : Type} [Account α] {b : α} (hb : Account.ofData account.data = .ok b) :
      Client.fetch e (k.home c slot) = .ok b := by
    rw [Client.fetch, hfetch]
    exact hb
  cases k with
  | agent => exact hread (α := Agent) hdecode
  | session => exact hread (α := Session) hdecode
  | task => exact hread (α := Task) hdecode

theorem sight_eq_some_iff {slots : List UInt64} {status : k.kind.Status} {mode : WaitMode}
    {token : Option Token} {c : Address × Bytes} {slot : UInt64} {a : k.kind.Record} :
    (k.request slots status mode token).sight c = some (.slot slot, a) ↔
      slot ∈ slots ∧ k.Shows status slot a c := by
  have hkey : ((k.kind.watch.keyOf a).getD (.address c.1) = .slot slot) ↔ k.slotOf a = slot := by
    rw [keyOf_eq, Option.getD_some, EntityKey.slot.injEq]
  have htarget : EntityKey.slot slot ∈ slots.map EntityKey.slot ↔ slot ∈ slots := by simp
  rw [WaitRequest.sight_eq_some_iff, Watch.observe_eq_some_iff]
  exact and_congr htarget (and_congr_right fun _ => and_congr_right fun _ => hkey)

/-- The record that a wait answers with for a slot was read from the account: the last one that
shows the slot among those that were listed and those that the stream brought. -/
structure Source (k : SlotKind) (w : World) (n : Nat) (moves : List Move) (status : k.kind.Status)
    (slot : UInt64) (a : k.kind.Record) (listed : List RawAccount) (seen : List (Address × Bytes))
    (account : RawAccount) : Prop where
  stands : w.StandsDuring n moves account
  shows : k.Shows status slot a account.change
  last : ∃ before after, listed.map RawAccount.change ++ seen =
      before ++ account.change :: after ∧ ∀ c ∈ after, ∀ b, ¬ k.Shows status slot b c

/-- If the stream brought nothing, the last account in the ledger that shows the slot counts. -/
private theorem Source.address_le {w : World} {n : Nat} {moves : List Move} {status : k.kind.Status}
    {slot : UInt64} {a : k.kind.Record} {listed : List RawAccount} {account : RawAccount}
    (h : k.Source w n moves status slot a listed [] account)
    (hascending : RawAccount.Ascending listed) {other : RawAccount} (hother : other ∈ listed)
    {b : k.kind.Record} (hshows : k.Shows status slot b other.change) :
    other.address ≤ account.address := by
  obtain ⟨before, after, hsplit, hafter⟩ := h.last
  rw [List.append_nil] at hsplit
  have hordered : (before ++ account.change :: after).Pairwise fun c d => c.1 < d.1 := by
    rw [← hsplit]
    exact List.pairwise_map.mpr hascending
  have hmem : other.change ∈ before ++ account.change :: after :=
    hsplit ▸ List.mem_map_of_mem hother
  rcases List.mem_append.mp hmem with hmem | hmem
  · have hlt := (List.pairwise_append.mp hordered).2.2 _ hmem _ List.mem_cons_self
    exact Std.le_of_lt hlt
  · rcases List.mem_cons.mp hmem with heq | hmem
    · have haddress : other.address = account.address := congrArg Prod.fst heq
      exact haddress ▸ Std.le_refl _
    · exact absurd hshows (hafter _ hmem b)

end SlotKind

namespace World

/-- A wait answers for a slot with the record of one account that stood in the ledger: that of its
own network or of another one. It is that of its own network if no account of another one shows the
slot with the status while the wait goes on, and then the client reads the same record, as long as
the account stands there. If the listing alone was enough, the last address among the accounts that
show the slot counts. -/
theorem source_of_outcomeAt? (w : World) (id : String) (k : SlotKind) (slots : List UInt64)
    (status : k.kind.Status) (mode : WaitMode) (token : Option Token) (timeout : Option UInt64)
    (moves : List Move)
    (hplaced : ∀ i ≤ moves.length, k.Placed w.client.program
      ((w.startWait id k.kind (k.request slots status mode token) timeout).play
        (moves.take i)).accounts)
    {found : Found k.kind.Record}
    (hend : ((w.startWait id k.kind (k.request slots status mode token) timeout).play
      moves).outcomeAt? w.waits.length = some ⟨k.kind, .ok found⟩)
    {slot : UInt64} {a : k.kind.Record} (ha : (.slot slot, a) ∈ found) :
    ∃ account j listed seen,
      (w.startWait id k.kind (k.request slots status mode token) timeout).ListsWith w.waits.length
        (k.kind.watch.filters status) moves j listed ∧
      seen <+: (w.startWait id k.kind (k.request slots status mode token) timeout).arrivals
        w.waits.length moves ∧
      k.Source (w.startWait id k.kind (k.request slots status mode token) timeout) w.waits.length
        moves status slot a listed seen account ∧
      (account.address = k.home w.client slot ∨ ∃ network ≠ w.client.network,
        account.address = (k.derivation network slot).address w.client.program) ∧
      ((∀ other b, (w.startWait id k.kind (k.request slots status mode token) timeout).StandsDuring
          w.waits.length moves other → k.Shows status slot b other.change →
        other.address = k.home w.client slot) → account.address = k.home w.client slot) ∧
      (account.address = k.home w.client slot →
        account ∈ ((w.startWait id k.kind (k.request slots status mode token) timeout).play
          moves).accounts →
        ((w.startWait id k.kind (k.request slots status mode token) timeout).play
          moves).endpoint.serve .getAccount = .ok () →
        k.get w.client ((w.startWait id k.kind (k.request slots status mode token) timeout).play
          moves).endpoint slot = .ok a) ∧
      (seen = [] → ∀ other ∈ listed, ∀ b, k.Shows status slot b other.change →
        other.address ≤ account.address) := by
  have hbegins := begins_startWait w id (k.request slots status mode token) timeout
  obtain ⟨j, listed, seen, hlists, hseen, -, rfl⟩ := hbegins.foundIn_of_outcomeAt? hend
  obtain ⟨before, c, after, hsplit, hsight, hafter⟩ :=
    (k.request slots status mode token).exists_of_latest
      ((k.request slots status mode token).mem_foundIn_iff.mp ha)
  obtain ⟨hslot, hshows⟩ := SlotKind.sight_eq_some_iff.mp hsight
  have hc : c ∈ listed.map RawAccount.change ++ seen := by simp [hsplit]
  obtain ⟨account, rfl, hstands⟩ := hbegins.standsDuring_of_mem hlists hseen hc
  have hsource : k.Source (w.startWait id k.kind (k.request slots status mode token) timeout)
      w.waits.length moves status slot a listed seen account := by
    refine ⟨hstands, hshows, before, after, hsplit, ?_⟩
    intro d hd b hb
    exact hafter d hd b (SlotKind.sight_eq_some_iff.mpr ⟨hslot, hb⟩)
  refine ⟨account, j, listed, seen, hlists, hseen, hsource, ?_, ?_, ?_, ?_⟩
  · obtain ⟨i, hi, -, haccount⟩ := hstands
    obtain ⟨network, haddress⟩ := hplaced i hi account haccount a hshows.1
    rw [hshows.2.2] at haddress
    by_cases hown : network = w.client.network
    · rw [hown] at haddress
      exact Or.inl haddress
    · exact Or.inr ⟨network, hown, haddress⟩
  · exact fun hothers => hothers account a hstands hshows
  · intro haddress haccount hserve
    exact SlotKind.get_eq_ok hserve haccount haddress hshows.1
  · rintro rfl other hother b hb
    exact hsource.address_le (Endpoint.ascending_of_listing hlists.listing) hother hb

end World

/-! ## An agent of another network -/

/-- An agent in slot 0, which is active. -/
def Agent.first : Agent where
  agentSlotId := 0
  owner := .replicate 32 1
  status := .active
  agentConfigCid := "config"
  agentMemoryCid := none
  approvedValidators := []
  rejectedValidators := []
  bump := 255

/-- The agent in its slot of another network than that of the client. -/
def Agent.firstElsewhere : RawAccount :=
  ⟨(Derivation.agent (.replicate 32 103) 0).address (.replicate 32 100), Account.toData first, 1⟩

/-- A client of a network without agents, next to a network of the same program with one. -/
def World.elsewhere : World where
  client := { program := .replicate 32 100, network := .replicate 32 104, canSubscribe := true }
  endpoint := { ledger := .put .empty Agent.firstElsewhere }

/-- Asks for the agent in slot 0 to be active. -/
def WaitRequest.firstAgent : WaitRequest EntityKind.agent.Record EntityKind.agent.Status :=
  SlotKind.agent.request [0] AgentStatus.active .first none

namespace World

theorem mem_accounts_elsewhere {account : RawAccount} (h : account ∈ elsewhere.accounts) :
    account = Agent.firstElsewhere := by
  rcases (Ledger.mem_put_iff .empty).mp h with rfl | ⟨hmem, -⟩
  · rfl
  · cases hmem

theorem placed_elsewhere : SlotKind.agent.Placed (.replicate 32 100) elsewhere.accounts := by
  intro account haccount a ha
  have hread : (Account.ofData account.data : Except ClientError Agent) = .ok a := ha
  have hfirst : Account.ofData (Account.toData Agent.first) = .ok Agent.first := by decide +kernel
  have hstored := mem_accounts_elsewhere haccount
  have hdata : account.data = Account.toData Agent.first := by
    rw [hstored]
    rfl
  rw [hdata, hfirst] at hread
  cases hread
  have hderivation : SlotKind.agent.derivation (.replicate 32 103)
      (SlotKind.agent.slotOf Agent.first) = .agent (.replicate 32 103) 0 := rfl
  refine ⟨.replicate 32 103, ?_⟩
  rw [hstored, hderivation]
  rfl

theorem outcome_elsewhere :
    ((elsewhere.startWait "agent" .agent .firstAgent none).play []).outcomeAt? 0 =
      some ⟨.agent, .ok [(.slot 0, Agent.first)]⟩ := by
  decide +kernel

/-- The client finds nothing where it would read the agent. -/
private theorem account?_elsewhere :
    elsewhere.endpoint.ledger.account? (SlotKind.agent.home elsewhere.client 0) = none := by
  cases hfind : elsewhere.endpoint.ledger.account? (SlotKind.agent.home elsewhere.client 0) with
  | none => rfl
  | some account =>
    obtain ⟨hmem, haddress⟩ := (Ledger.account?_eq_some_iff _).mp hfind
    rw [mem_accounts_elsewhere hmem] at haddress
    have hne : Agent.firstElsewhere.address.toList.head? ≠
        (SlotKind.agent.home elsewhere.client 0).toList.head? := by decide +kernel
    exact absurd (congrArg (·.toList.head?) haddress) hne

theorem not_forall_get_eq :
    ¬ ∀ (w : World) (id : String) (k : SlotKind) (slots : List UInt64) (status : k.kind.Status)
      (mode : WaitMode) (token : Option Token) (timeout : Option UInt64)
      (found : Found k.kind.Record), k.Placed w.client.program w.accounts →
      w.endpoint.serve .getAccount = .ok () →
      ((w.startWait id k.kind (k.request slots status mode token) timeout).play
        []).outcomeAt? w.waits.length = some ⟨k.kind, .ok found⟩ →
      ∀ slot a, (.slot slot, a) ∈ found → k.get w.client w.endpoint slot = .ok a := by
  intro h
  have hget := h elsewhere "agent" .agent [0] AgentStatus.active .first none none _
    placed_elsewhere rfl outcome_elsewhere 0 _ List.mem_cons_self
  have hmissing : SlotKind.agent.get elsewhere.client elsewhere.endpoint 0 =
      .error (.accountNotFound "Agent" (SlotKind.agent.home elsewhere.client 0)) := by
    change Client.fetch elsewhere.endpoint (SlotKind.agent.home elsewhere.client 0) = _
    rw [Client.fetch, Endpoint.account, account?_elsewhere]
    rfl
  rw [hmissing] at hget
  cases hget

theorem source_elsewhere :
    ∃ account listed seen, SlotKind.agent.Source
      (elsewhere.startWait "agent" .agent .firstAgent none) 0 [] AgentStatus.active 0
        Agent.first listed seen account ∧
      (account.address = SlotKind.agent.home elsewhere.client 0 ∨
        ∃ network ≠ elsewhere.client.network,
          account.address = (Derivation.agent network 0).address elsewhere.client.program) := by
  have hplaced : ∀ i ≤ ([] : List Move).length, SlotKind.agent.Placed elsewhere.client.program
      ((elsewhere.startWait "agent" .agent .firstAgent none).play (List.take i [])).accounts := by
    intro i _
    rw [List.take_nil, play_nil, accounts, endpoint_startWait]
    exact placed_elsewhere
  obtain ⟨account, _, listed, seen, -, -, hsource, hnetwork, -⟩ := source_of_outcomeAt? elsewhere
    "agent" .agent [0] AgentStatus.active .first none none [] hplaced outcome_elsewhere
    List.mem_cons_self
  exact ⟨account, listed, seen, hsource, hnetwork⟩

end World

end ComputeNet
