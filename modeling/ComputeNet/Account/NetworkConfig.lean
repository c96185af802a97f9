import ComputeNet.Account.Basic
import ComputeNet.Version

/-!
# Network accounts

What the program keeps of a network as a whole: its counters, its approved nodes and the code that
confidential nodes may run.
-/

namespace ComputeNet

/-- The account of a network. -/
structure NetworkConfig where
  authority : Address
  cidConfig : String
  genesisHash : Digest
  agentCount : UInt64
  sessionCount : UInt64
  taskCount : UInt64
  requiredValidations : UInt32
  allowedModels : List UInt64
  approvedPublicNodes : List Address
  approvedConfidentialNodes : List Address
  /-- The approved releases, newest first. -/
  approvedCodeMeasurements : List CodeMeasurement
  bump : UInt8
deriving DecidableEq

namespace NetworkConfig

def fields (n : NetworkConfig) :
    Address × String × Digest × UInt64 × UInt64 × UInt64 × UInt32 × List UInt64 × List Address ×
      List Address × List CodeMeasurement × UInt8 :=
  (n.authority, n.cidConfig, n.genesisHash, n.agentCount, n.sessionCount, n.taskCount,
    n.requiredValidations, n.allowedModels, n.approvedPublicNodes, n.approvedConfidentialNodes,
    n.approvedCodeMeasurements, n.bump)

instance : Account NetworkConfig where
  toBorsh := Borsh.ofFields fields
    fun (authority, cidConfig, genesisHash, agentCount, sessionCount, taskCount,
        requiredValidations, allowedModels, approvedPublicNodes, approvedConfidentialNodes,
        approvedCodeMeasurements, bump) =>
      { authority, cidConfig, genesisHash, agentCount, sessionCount, taskCount,
        requiredValidations, allowedModels, approvedPublicNodes, approvedConfidentialNodes,
        approvedCodeMeasurements, bump }
  name := "NetworkConfig"

/-- The network accepts code with this measurement. -/
def approves (n : NetworkConfig) (measurement : Digest) : Bool :=
  n.approvedCodeMeasurements.any fun m => m.measurement = measurement

def latestMeasurement? (n : NetworkConfig) : Option CodeMeasurement :=
  n.approvedCodeMeasurements.head?

def nextAgentSlot (n : NetworkConfig) : UInt64 := n.agentCount

def nextSessionSlot (n : NetworkConfig) : UInt64 := n.sessionCount

def nextTaskSlot (n : NetworkConfig) : UInt64 := n.taskCount

/-- The approved nodes, confidential or public ones. -/
def approvedNodes (n : NetworkConfig) (confidential : Bool) : List Address :=
  if confidential then n.approvedConfidentialNodes else n.approvedPublicNodes

end NetworkConfig

end ComputeNet
