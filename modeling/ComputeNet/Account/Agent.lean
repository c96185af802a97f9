import ComputeNet.Account.Basic

/-!
# Agent accounts

What the program keeps of an agent.
-/

namespace ComputeNet

/-- Where an agent stands. -/
inductive AgentStatus where
  | pending
  | active
  | inactive
deriving DecidableEq, Repr

instance : Enumeration AgentStatus where
  members := [.pending, .active, .inactive]
  name
    | .pending => "Pending"
    | .active => "Active"
    | .inactive => "Inactive"

instance : Borsh AgentStatus := Borsh.ofTags AgentStatus

structure Agent where
  agentSlotId : UInt64
  owner : Address
  status : AgentStatus
  agentConfigCid : String
  agentMemoryCid : Option String
  approvedValidators : List Address
  rejectedValidators : List Address
  bump : UInt8
deriving DecidableEq

namespace Agent

def fields (a : Agent) :
    UInt64 × Address × AgentStatus × String × Option String × List Address × List Address ×
      UInt8 :=
  (a.agentSlotId, a.owner, a.status, a.agentConfigCid, a.agentMemoryCid, a.approvedValidators,
    a.rejectedValidators, a.bump)

instance : Account Agent where
  toBorsh := Borsh.ofFields fields
    fun (agentSlotId, owner, status, agentConfigCid, agentMemoryCid, approvedValidators,
        rejectedValidators, bump) =>
      { agentSlotId, owner, status, agentConfigCid, agentMemoryCid, approvedValidators,
        rejectedValidators, bump }
  name := "Agent"

/-- Where the status byte stands in account data: after the discriminator, the slot and the
owner. -/
def statusOffset : UInt64 := 8 + 8 + 32

end Agent

end ComputeNet
