import ComputeNet.Account.Agent
import ComputeNet.Account.NodeInfo
import ComputeNet.Account.Session
import ComputeNet.Account.Task
import ComputeNet.Ledger.Basic

/-!
# Watching for a status

How the accounts of one kind with a given status are found, read and told apart (`node_watch`,
`agent_watch`, `session_watch` and `task_watch`). The endpoint filters by the discriminator and by
the status byte; `observe` reads the account and looks at the status again, because the status byte
of some layouts stands elsewhere.
-/

namespace ComputeNet

/-- What stands for an account in a wait. -/
inductive EntityKey where
  /-- An address in the record, or that of the account itself. -/
  | address (address : Address)
  /-- The slot in the record. -/
  | slot (slot : UInt64)
deriving DecidableEq

/-- How accounts with records of type `α` are watched for statuses of type `σ`. -/
structure Watch (α σ : Type) where
  account : String
  discriminator : Discriminator
  /-- Where the status byte stands in account data. -/
  statusOffset : UInt64
  decode : Bytes → Except ClientError α
  /-- What stands for a record; where there is nothing, the address of its account does. -/
  keyOf : α → Option EntityKey
  statusOf : α → σ

namespace Watch

variable {α σ : Type} [Enumeration σ] [DecidableEq σ]

def filters (w : Watch α σ) (status : σ) : List Filter :=
  [⟨0, w.discriminator.toList⟩, ⟨w.statusOffset, [Enumeration.tag status]⟩]

/-- The record of an account with a status, and what stands for it. -/
def observe (w : Watch α σ) (status : σ) (address : Address) (data : Bytes) :
    Option (EntityKey × α) :=
  match w.decode data with
  | .error _ => none
  | .ok a =>
    if w.statusOf a = status then some ((w.keyOf a).getD (.address address), a) else none

/-- The same watch, with every account standing for itself by its address. -/
def byAddress (w : Watch α σ) : Watch α σ := { w with keyOf := fun _ => none }

/-- The accounts in a listing that have a status, with their addresses. -/
def select (w : Watch α σ) (status : σ) (accounts : List RawAccount) : List (Address × α) :=
  accounts.filterMap fun r => (w.observe status r.address r.data).map fun p => (r.address, p.2)

end Watch

/-- How the accounts of an account type are watched. -/
def Account.watch {α σ : Type} [Account α] (statusOffset : UInt64)
    (keyOf : α → Option EntityKey) (statusOf : α → σ) : Watch α σ where
  account := name α
  discriminator := discriminator α
  statusOffset
  decode := ofData
  keyOf
  statusOf

/-- Nodes stand for themselves by their own addresses. -/
def NodeInfo.watch : Watch NodeInfo NodeStatus :=
  Account.watch statusOffset (fun n => some (.address n.nodePubkey)) (·.status)

/-- Agents stand for themselves by their slots. -/
def Agent.watch : Watch Agent AgentStatus :=
  Account.watch statusOffset (fun a => some (.slot a.agentSlotId)) (·.status)

/-- Sessions stand for themselves by their slots. -/
def Session.watch : Watch Session SessionStatus :=
  Account.watch statusOffset (fun s => some (.slot s.sessionSlotId)) (·.status)

/-- Tasks stand for themselves by their slots. The status byte is that of tasks which are bound to
a session, so that only those can be watched. -/
def Task.watch : Watch Task TaskStatus :=
  Account.watch statusOffset (fun t => some (.slot t.taskSlotId)) (·.status)

/-- The kinds of accounts that can be watched. -/
inductive EntityKind where
  | node
  | agent
  | session
  | task
deriving DecidableEq, Repr

namespace EntityKind

instance : Enumeration EntityKind where
  members := [.node, .agent, .session, .task]
  name
    | .node => "node"
    | .agent => "agent"
    | .session => "session"
    | .task => "task"

def Record : EntityKind → Type
  | .node => NodeInfo
  | .agent => Agent
  | .session => Session
  | .task => Task

def Status : EntityKind → Type
  | .node => NodeStatus
  | .agent => AgentStatus
  | .session => SessionStatus
  | .task => TaskStatus

instance : (k : EntityKind) → DecidableEq k.Record
  | .node => inferInstanceAs (DecidableEq NodeInfo)
  | .agent => inferInstanceAs (DecidableEq Agent)
  | .session => inferInstanceAs (DecidableEq Session)
  | .task => inferInstanceAs (DecidableEq Task)

instance : (k : EntityKind) → Enumeration k.Status
  | .node => inferInstanceAs (Enumeration NodeStatus)
  | .agent => inferInstanceAs (Enumeration AgentStatus)
  | .session => inferInstanceAs (Enumeration SessionStatus)
  | .task => inferInstanceAs (Enumeration TaskStatus)

instance : (k : EntityKind) → DecidableEq k.Status
  | .node => inferInstanceAs (DecidableEq NodeStatus)
  | .agent => inferInstanceAs (DecidableEq AgentStatus)
  | .session => inferInstanceAs (DecidableEq SessionStatus)
  | .task => inferInstanceAs (DecidableEq TaskStatus)

/-- How accounts of a kind are watched. -/
def watch : (k : EntityKind) → Watch k.Record k.Status
  | .node => NodeInfo.watch
  | .agent => Agent.watch
  | .session => Session.watch
  | .task => Task.watch

end EntityKind

end ComputeNet
