import ComputeNet.Account.Basic

/-!
# Session accounts

What the program keeps of a session, and what it keeps of each contributor to one.
-/

namespace ComputeNet

/-- Where a session stands. -/
inductive SessionStatus where
  | pending
  | active
  | completed
deriving DecidableEq, Repr

instance : Enumeration SessionStatus where
  members := [.pending, .active, .completed]
  name
    | .pending => "Pending"
    | .active => "Active"
    | .completed => "Completed"

instance : Borsh SessionStatus := Borsh.ofTags SessionStatus

structure Session where
  sessionSlotId : UInt64
  owner : Address
  task : Address
  status : SessionStatus
  isConfidential : Bool
  /-- How many iterations the session may run; 0 sets no bound. -/
  maxIterations : UInt64
  currentIteration : UInt64
  taskIndexStart : UInt64
  taskIndexEnd : UInt64
  totalShares : UInt64
  lockedForTasks : UInt64
  specificationCid : String
  stateCid : Option String
  vaultBump : UInt8
  bump : UInt8
deriving DecidableEq

namespace Session

def fields (s : Session) :
    UInt64 × Address × Address × SessionStatus × Bool × UInt64 × UInt64 × UInt64 × UInt64 ×
      UInt64 × UInt64 × String × Option String × UInt8 × UInt8 :=
  (s.sessionSlotId, s.owner, s.task, s.status, s.isConfidential, s.maxIterations,
    s.currentIteration, s.taskIndexStart, s.taskIndexEnd, s.totalShares, s.lockedForTasks,
    s.specificationCid, s.stateCid, s.vaultBump, s.bump)

instance : Account Session where
  toBorsh := Borsh.ofFields fields
    fun (sessionSlotId, owner, task, status, isConfidential, maxIterations, currentIteration,
        taskIndexStart, taskIndexEnd, totalShares, lockedForTasks, specificationCid, stateCid,
        vaultBump, bump) =>
      { sessionSlotId, owner, task, status, isConfidential, maxIterations, currentIteration,
        taskIndexStart, taskIndexEnd, totalShares, lockedForTasks, specificationCid, stateCid,
        vaultBump, bump }
  name := "Session"

/-- Where the status byte stands in account data: after the discriminator, the slot and two
addresses. -/
def statusOffset : UInt64 := 8 + 8 + 32 + 32

/-- The session belongs to whoever sets it first: its owner is the address of zero bytes. -/
def isUnowned (s : Session) : Bool := s.owner = .replicate 32 0

end Session

/-- The account of a contributor to a session. -/
structure Contribution where
  session : Address
  contributor : Address
  shares : UInt64
  refundAmount : UInt64
  bump : UInt8
deriving DecidableEq

namespace Contribution

def fields (c : Contribution) : Address × Address × UInt64 × UInt64 × UInt8 :=
  (c.session, c.contributor, c.shares, c.refundAmount, c.bump)

instance : Account Contribution where
  toBorsh := Borsh.ofFields fields fun (session, contributor, shares, refundAmount, bump) =>
    { session, contributor, shares, refundAmount, bump }
  name := "Contribution"

end Contribution

end ComputeNet
