import ComputeNet.Account.NodeInfo
import ComputeNet.Account.Task
import ComputeNet.Instruction.Basic
import ComputeNet.Version

/-!
# Instruction arguments

What each of the program's instructions is told besides its accounts. The data of an instruction
is the discriminator of its kind and the arguments, in order.
-/

namespace ComputeNet

inductive InstructionKind where
  | initializeNetwork
  | updateNetworkConfig
  | registerNode
  | claimComputeNode
  | claimConfidentialNode
  | validatePublicNode
  | activateNode
  | createAgent
  | validateAgent
  | createSession
  | setSession
  | contributeToSession
  | withdrawFromSession
  | submitTask
  | claimTask
  | submitTaskResult
  | submitTaskValidation
deriving DecidableEq, Repr

namespace InstructionKind

instance : Enumeration InstructionKind where
  members := [.initializeNetwork, .updateNetworkConfig, .registerNode, .claimComputeNode,
    .claimConfidentialNode, .validatePublicNode, .activateNode, .createAgent, .validateAgent,
    .createSession, .setSession, .contributeToSession, .withdrawFromSession, .submitTask,
    .claimTask, .submitTaskResult, .submitTaskValidation]
  name
    | .initializeNetwork => "initialize_network"
    | .updateNetworkConfig => "update_network_config"
    | .registerNode => "register_node"
    | .claimComputeNode => "claim_compute_node"
    | .claimConfidentialNode => "claim_confidential_node"
    | .validatePublicNode => "validate_public_node"
    | .activateNode => "activate_node"
    | .createAgent => "create_agent"
    | .validateAgent => "validate_agent"
    | .createSession => "create_session"
    | .setSession => "set_session"
    | .contributeToSession => "contribute_to_session"
    | .withdrawFromSession => "withdraw_from_session"
    | .submitTask => "submit_task"
    | .claimTask => "claim_task"
    | .submitTaskResult => "submit_task_result"
    | .submitTaskValidation => "submit_task_validation"

/-- What the data of an instruction of the kind begins with. -/
def discriminator : InstructionKind → Discriminator
  | .initializeNetwork => ⟨[75, 50, 251, 50, 0, 159, 20, 5], rfl⟩
  | .updateNetworkConfig => ⟨[45, 224, 17, 25, 202, 30, 112, 84], rfl⟩
  | .registerNode => ⟨[102, 85, 117, 114, 194, 188, 211, 168], rfl⟩
  | .claimComputeNode => ⟨[202, 199, 87, 60, 125, 64, 171, 108], rfl⟩
  | .claimConfidentialNode => ⟨[79, 215, 217, 190, 247, 159, 228, 186], rfl⟩
  | .validatePublicNode => ⟨[60, 125, 238, 128, 0, 198, 237, 58], rfl⟩
  | .activateNode => ⟨[82, 132, 214, 216, 231, 212, 232, 250], rfl⟩
  | .createAgent => ⟨[143, 66, 198, 95, 110, 85, 83, 249], rfl⟩
  | .validateAgent => ⟨[204, 64, 254, 54, 198, 119, 179, 36], rfl⟩
  | .createSession => ⟨[242, 193, 143, 179, 150, 25, 122, 227], rfl⟩
  | .setSession => ⟨[156, 135, 126, 111, 184, 206, 194, 141], rfl⟩
  | .contributeToSession => ⟨[202, 45, 115, 86, 65, 234, 184, 110], rfl⟩
  | .withdrawFromSession => ⟨[192, 130, 131, 90, 159, 72, 26, 2], rfl⟩
  | .submitTask => ⟨[148, 183, 26, 116, 107, 213, 118, 213], rfl⟩
  | .claimTask => ⟨[49, 222, 219, 238, 155, 68, 221, 136], rfl⟩
  | .submitTaskResult => ⟨[39, 108, 74, 4, 66, 125, 157, 7], rfl⟩
  | .submitTaskValidation => ⟨[57, 139, 43, 229, 231, 44, 47, 164], rfl⟩

end InstructionKind

/-- The arguments of an instruction, by its kind. -/
inductive Arguments where
  | initializeNetwork (cidConfig : String) (allocateTasks : UInt64)
      (approvedCodeMeasurements : List CodeMeasurement) (requiredValidations : UInt32)
  | updateNetworkConfig (cidConfig : Option String) (newCodeMeasurement : Option CodeMeasurement)
  | registerNode (nodePubkey : Address) (nodeType : NodeType)
  | claimComputeNode (nodeInfoCid : String)
  | claimConfidentialNode (codeMeasurement : Digest) (teeSigningPubkey : Address)
  | validatePublicNode (approved : Bool)
  | activateNode
  | createAgent (agentConfigCid : String)
  | validateAgent
  | createSession (isOwned isConfidential : Bool)
  | setSession (specificationCid : String) (maxIterations initialDeposit : UInt64)
      (computeNode : Address) (taskType : TaskType)
  | contributeToSession (depositAmount : UInt64)
  | withdrawFromSession (sharesToBurn : UInt64)
  | submitTask (inputCid : String)
  | claimTask (maxTaskCost : UInt64)
  | submitTaskResult (inputCid outputCid : String)
  | submitTaskValidation
deriving DecidableEq

namespace Arguments

def kind : Arguments → InstructionKind
  | .initializeNetwork .. => .initializeNetwork
  | .updateNetworkConfig .. => .updateNetworkConfig
  | .registerNode .. => .registerNode
  | .claimComputeNode .. => .claimComputeNode
  | .claimConfidentialNode .. => .claimConfidentialNode
  | .validatePublicNode .. => .validatePublicNode
  | .activateNode => .activateNode
  | .createAgent .. => .createAgent
  | .validateAgent => .validateAgent
  | .createSession .. => .createSession
  | .setSession .. => .setSession
  | .contributeToSession .. => .contributeToSession
  | .withdrawFromSession .. => .withdrawFromSession
  | .submitTask .. => .submitTask
  | .claimTask .. => .claimTask
  | .submitTaskResult .. => .submitTaskResult
  | .submitTaskValidation => .submitTaskValidation

/-- The bytes of the arguments, or `none` if a length in them does not fit its format. -/
def body? : Arguments → Option Bytes
  | .initializeNetwork cidConfig allocateTasks approvedCodeMeasurements requiredValidations =>
      Borsh.encode? (cidConfig, allocateTasks, approvedCodeMeasurements, requiredValidations)
  | .updateNetworkConfig cidConfig newCodeMeasurement =>
      Borsh.encode? (cidConfig, newCodeMeasurement)
  | .registerNode nodePubkey nodeType => Borsh.encode? (nodePubkey, nodeType)
  | .claimComputeNode nodeInfoCid => Borsh.encode? nodeInfoCid
  | .claimConfidentialNode codeMeasurement teeSigningPubkey =>
      Borsh.encode? (codeMeasurement, teeSigningPubkey)
  | .validatePublicNode approved => Borsh.encode? approved
  | .activateNode => Borsh.encode? ()
  | .createAgent agentConfigCid => Borsh.encode? agentConfigCid
  | .validateAgent => Borsh.encode? ()
  | .createSession isOwned isConfidential => Borsh.encode? (isOwned, isConfidential)
  | .setSession specificationCid maxIterations initialDeposit computeNode taskType =>
      Borsh.encode? (specificationCid, maxIterations, initialDeposit, computeNode, taskType)
  | .contributeToSession depositAmount => Borsh.encode? depositAmount
  | .withdrawFromSession sharesToBurn => Borsh.encode? sharesToBurn
  | .submitTask inputCid => Borsh.encode? inputCid
  | .claimTask maxTaskCost => Borsh.encode? maxTaskCost
  | .submitTaskResult inputCid outputCid => Borsh.encode? (inputCid, outputCid)
  | .submitTaskValidation => Borsh.encode? ()

/-- The data of the instruction, if the arguments fit their format. -/
def data? (args : Arguments) : Option Bytes :=
  args.body?.map fun body => args.kind.discriminator.toList ++ body

/-- The instruction with these arguments. -/
def instruction (program : Address) (accounts : List AccountRef) (args : Arguments) :
    Except ClientError Instruction :=
  match args.data? with
  | none => .error (.encode (Enumeration.name args.kind))
  | some data => .ok { program, accounts, data }

end Arguments

end ComputeNet
