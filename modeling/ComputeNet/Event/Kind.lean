import ComputeNet.Discriminator
import ComputeNet.Enumeration

/-!
# Event kinds and scopes

The kinds of events, the discriminators that tell them apart, and the two scopes under which
events are followed: one session, or the program as a whole. A scope accepts certain kinds, and
the scope of a session keeps events of other sessions out.
-/

namespace ComputeNet

inductive EventKind where
  | taskClaimed
  | taskResultSubmitted
  | taskValidationSubmitted
  | sessionSet
  | contributionMade
  | sessionCompleted
  | nodeValidated
  | nodeRejected
  | agentCreated
deriving DecidableEq, Repr

namespace EventKind

instance : Enumeration EventKind where
  members := [.taskClaimed, .taskResultSubmitted, .taskValidationSubmitted, .sessionSet,
    .contributionMade, .sessionCompleted, .nodeValidated, .nodeRejected, .agentCreated]
  name
    | .taskClaimed => "TaskClaimed"
    | .taskResultSubmitted => "TaskResultSubmitted"
    | .taskValidationSubmitted => "TaskValidationSubmitted"
    | .sessionSet => "SessionSet"
    | .contributionMade => "ContributionMade"
    | .sessionCompleted => "SessionCompleted"
    | .nodeValidated => "NodeValidated"
    | .nodeRejected => "NodeRejected"
    | .agentCreated => "AgentCreated"

def discriminator (kind : EventKind) : Discriminator := .ofName "event" (Enumeration.name kind)

def byDiscriminator : List (Discriminator × EventKind) :=
  Enumeration.members.map fun kind => (discriminator kind, kind)

def ofDiscriminator? (d : Discriminator) : Option EventKind := byDiscriminator.lookup d

/-- The kinds that the scope of a session accepts. -/
def sessionScoped : List EventKind := [.taskClaimed, .taskResultSubmitted,
  .taskValidationSubmitted, .nodeValidated, .nodeRejected, .sessionCompleted]

/-- The kinds that the scope of the program accepts. -/
def programWide : List EventKind := [.sessionSet, .contributionMade, .sessionCompleted,
  .agentCreated, .nodeValidated, .nodeRejected]

end EventKind

/-- What a feed or a history is about. -/
inductive Scope where
  | session (slot : UInt64)
  /-- All sessions, agents and nodes. -/
  | program
deriving DecidableEq, Repr

namespace Scope

/-- The kinds that are delivered under the scope. -/
def kinds : Scope → List EventKind
  | .session _ => EventKind.sessionScoped
  | .program => EventKind.programWide

/-- Events of the kind are delivered under the scope. -/
def accepts (scope : Scope) (kind : EventKind) : Bool := kind ∈ scope.kinds

theorem accepts_eq (scope : Scope) (kind : EventKind) : scope.accepts kind =
    match scope with
    | .session _ => decide (kind ∈ EventKind.sessionScoped)
    | .program => decide (kind ∈ EventKind.programWide) := by
  cases scope <;> rfl

/-- The session that events must belong to, if they belong to any. -/
def sessionFilter : Scope → Option UInt64
  | .session slot => some slot
  | .program => none

end Scope

end ComputeNet
