import ComputeNet.Account.Basic

/-!
# Node accounts

What the program keeps of a compute node.
-/

namespace ComputeNet

/-- Whether others can see what a node works on. -/
inductive NodeType where
  | ordinary
  | confidential
deriving DecidableEq, Repr

instance : Enumeration NodeType where
  members := [.ordinary, .confidential]
  name
    | .ordinary => "Public"
    | .confidential => "Confidential"

instance : Borsh NodeType := Borsh.ofTags NodeType

/-- Where a node stands on its way into the network. -/
inductive NodeStatus where
  | pendingClaim
  | awaitingValidation
  | active
  | disabled
  | rejected
deriving DecidableEq, Repr

instance : Enumeration NodeStatus where
  members := [.pendingClaim, .awaitingValidation, .active, .disabled, .rejected]
  name
    | .pendingClaim => "PendingClaim"
    | .awaitingValidation => "AwaitingValidation"
    | .active => "Active"
    | .disabled => "Disabled"
    | .rejected => "Rejected"

instance : Borsh NodeStatus := Borsh.ofTags NodeStatus

structure NodeInfo where
  owner : Address
  nodePubkey : Address
  nodeType : NodeType
  status : NodeStatus
  nodeInfoCid : Option String
  codeMeasurement : Option Digest
  teeSigningPubkey : Option Address
  nodeTreasury : Address
  totalEarned : UInt64
  totalTasksCompleted : UInt64
  approvedValidators : List Address
  rejectedValidators : List Address
  bump : UInt8
deriving DecidableEq

namespace NodeInfo

def fields (n : NodeInfo) :
    Address × Address × NodeType × NodeStatus × Option String × Option Digest × Option Address ×
      Address × UInt64 × UInt64 × List Address × List Address × UInt8 :=
  (n.owner, n.nodePubkey, n.nodeType, n.status, n.nodeInfoCid, n.codeMeasurement,
    n.teeSigningPubkey, n.nodeTreasury, n.totalEarned, n.totalTasksCompleted,
    n.approvedValidators, n.rejectedValidators, n.bump)

instance : Account NodeInfo where
  toBorsh := Borsh.ofFields fields
    fun (owner, nodePubkey, nodeType, status, nodeInfoCid, codeMeasurement, teeSigningPubkey,
        nodeTreasury, totalEarned, totalTasksCompleted, approvedValidators, rejectedValidators,
        bump) =>
      { owner, nodePubkey, nodeType, status, nodeInfoCid, codeMeasurement, teeSigningPubkey,
        nodeTreasury, totalEarned, totalTasksCompleted, approvedValidators, rejectedValidators,
        bump }
  name := "NodeInfo"

/-- Where the status byte stands in account data: after the discriminator, two addresses and the
type. -/
def statusOffset : UInt64 := 8 + 32 + 32 + 1

end NodeInfo

end ComputeNet
