import ComputeNet.Address.Derived
import ComputeNet.Instruction.Arguments

/-!
# Network, node and agent instructions

Drafts of the instructions by which a network is set up and by which nodes and agents join it
(`InitializeNetworkBuilder` to `ValidateAgentBuilder`). A draft holds what has been filled in so
far. `instruction` completes it: it asks for the fields that have no default, in a fixed order, and
derives the accounts that the program works on.
-/

namespace ComputeNet.Draft

/-- The value of a field that has no default. -/
def required {α : Type} (field : String) : Option α → Except ClientError α
  | none => .error (.missingField field)
  | some a => .ok a

/-- Sets up a network, with accounts for its first tasks. -/
structure InitializeNetwork where
  authority : Option Address := none
  cidConfig : Option String := none
  allocateTasks : UInt64 := 0
  approvedCodeMeasurements : List CodeMeasurement := []
  requiredValidations : UInt32 := 1

/-- The accounts of the first tasks follow the fixed ones, in slot order. -/
def InitializeNetwork.instruction (program : Address) (d : InitializeNetwork) :
    Except ClientError Instruction := do
  let authority ← required "authority" d.authority
  let cidConfig ← required "cid_config" d.cidConfig
  let network := (Derivation.networkConfig authority).address program
  let tasks := Derivation.tasks program network d.allocateTasks.toNat
  Arguments.instruction program
    ([.signing authority, .writable network, .readonly Address.systemProgram] ++
      tasks.map .writable)
    (.initializeNetwork cidConfig d.allocateTasks d.approvedCodeMeasurements
      d.requiredValidations)

/-- Changes the configuration of a network or approves a release. -/
structure UpdateNetworkConfig where
  authority : Option Address := none
  cidConfig : Option String := none
  newCodeMeasurement : Option CodeMeasurement := none

/-- Both arguments may be left out. -/
def UpdateNetworkConfig.instruction (program : Address) (d : UpdateNetworkConfig) :
    Except ClientError Instruction := do
  let authority ← required "authority" d.authority
  let network := (Derivation.networkConfig authority).address program
  Arguments.instruction program [.signing authority, .writable network]
    (.updateNetworkConfig d.cidConfig d.newCodeMeasurement)

/-- Enters a node. -/
structure RegisterNode where
  owner : Option Address := none
  networkConfig : Option Address := none
  nodePubkey : Option Address := none
  nodeType : Option NodeType := none

/-- The node and its treasury get accounts. -/
def RegisterNode.instruction (program : Address) (d : RegisterNode) :
    Except ClientError Instruction := do
  let owner ← required "owner" d.owner
  let network ← required "network_config" d.networkConfig
  let node ← required "node_pubkey" d.nodePubkey
  let nodeType ← required "node_type" d.nodeType
  let info := (Derivation.nodeInfo node).address program
  let treasury := (Derivation.nodeTreasury info).address program
  Arguments.instruction program
    [.signing owner, .writable network, .writable info, .writable treasury,
      .readonly Address.systemProgram]
    (.registerNode node nodeType)

/-- A public node claims its entry. -/
structure ClaimComputeNode where
  computeNode : Option Address := none
  networkConfig : Option Address := none
  nodeInfoCid : Option String := none

/-- The node itself signs. -/
def ClaimComputeNode.instruction (program : Address) (d : ClaimComputeNode) :
    Except ClientError Instruction := do
  let node ← required "compute_node" d.computeNode
  let network ← required "network_config" d.networkConfig
  let nodeInfoCid ← required "node_info_cid" d.nodeInfoCid
  let info := (Derivation.nodeInfo node).address program
  Arguments.instruction program [.signing node, .readonly network, .writable info]
    (.claimComputeNode nodeInfoCid)

/-- A confidential node claims its entry. -/
structure ClaimConfidentialNode where
  confidentialNode : Option Address := none
  networkConfig : Option Address := none
  codeMeasurement : Option Digest := none
  teeSigningPubkey : Option Address := none

/-- The node itself signs. -/
def ClaimConfidentialNode.instruction (program : Address) (d : ClaimConfidentialNode) :
    Except ClientError Instruction := do
  let node ← required "confidential_node" d.confidentialNode
  let network ← required "network_config" d.networkConfig
  let codeMeasurement ← required "code_measurement" d.codeMeasurement
  let teeSigningPubkey ← required "tee_signing_pubkey" d.teeSigningPubkey
  let info := (Derivation.nodeInfo node).address program
  Arguments.instruction program [.signing node, .writable network, .writable info]
    (.claimConfidentialNode codeMeasurement teeSigningPubkey)

/-- An active node gives its verdict on a public node. -/
structure ValidatePublicNode where
  nodeValidating : Option Address := none
  networkConfig : Option Address := none
  nodePubkey : Option Address := none
  approved : Bool := true

/-- The node that judges signs. -/
def ValidatePublicNode.instruction (program : Address) (d : ValidatePublicNode) :
    Except ClientError Instruction := do
  let judge ← required "node_validating" d.nodeValidating
  let network ← required "network_config" d.networkConfig
  let node ← required "node_pubkey" d.nodePubkey
  let judgeInfo := (Derivation.nodeInfo judge).address program
  let info := (Derivation.nodeInfo node).address program
  Arguments.instruction program
    [.signing judge, .writable network, .writable judgeInfo, .writable info]
    (.validatePublicNode d.approved)

/-- The authority activates a node without the verdict of others. -/
structure ActivateNode where
  authority : Option Address := none
  nodePubkey : Option Address := none

/-- The network is the one that the authority runs. -/
def ActivateNode.instruction (program : Address) (d : ActivateNode) :
    Except ClientError Instruction := do
  let authority ← required "authority" d.authority
  let node ← required "node_pubkey" d.nodePubkey
  let network := (Derivation.networkConfig authority).address program
  let info := (Derivation.nodeInfo node).address program
  Arguments.instruction program [.signing authority, .writable network, .writable info]
    .activateNode

/-- Creates an agent in the network's next agent slot. -/
structure CreateAgent where
  agentOwner : Option Address := none
  networkConfig : Option Address := none
  agentSlotId : Option UInt64 := none
  agentConfigCid : Option String := none

/-- The owner signs. -/
def CreateAgent.instruction (program : Address) (d : CreateAgent) :
    Except ClientError Instruction := do
  let owner ← required "agent_owner" d.agentOwner
  let network ← required "network_config" d.networkConfig
  let slot ← required "agent_slot_id" d.agentSlotId
  let agentConfigCid ← required "agent_config_cid" d.agentConfigCid
  let agent := (Derivation.agent network slot).address program
  Arguments.instruction program
    [.signing owner, .writable network, .writable agent, .readonly Address.systemProgram]
    (.createAgent agentConfigCid)

/-- A node vouches for an agent. -/
structure ValidateAgent where
  node : Option Address := none
  networkConfig : Option Address := none
  agentSlotId : Option UInt64 := none

/-- The node signs. -/
def ValidateAgent.instruction (program : Address) (d : ValidateAgent) :
    Except ClientError Instruction := do
  let node ← required "node" d.node
  let network ← required "network_config" d.networkConfig
  let slot ← required "agent_slot_id" d.agentSlotId
  let agent := (Derivation.agent network slot).address program
  let info := (Derivation.nodeInfo node).address program
  Arguments.instruction program
    [.signing node, .writable agent, .writable info, .readonly network] .validateAgent

end ComputeNet.Draft
