import ComputeNet.Instruction.Membership

/-!
# Session and task instructions

Drafts of the instructions by which sessions are funded and tasks are worked on.
-/

namespace ComputeNet.Draft

/-- Opens the network's next session, with its first task. -/
structure CreateSession where
  payer : Option Address := none
  /-- Who will own the session; the payer, if not given. -/
  owner : Option Address := none
  networkConfig : Option Address := none
  sessionSlotId : Option UInt64 := none
  taskSlotId : Option UInt64 := none
  isOwned : Bool := true
  isConfidential : Bool := false

/-- Payer and owner sign. -/
def CreateSession.instruction (program : Address) (d : CreateSession) :
    Except ClientError Instruction := do
  let payer ← required "payer" d.payer
  let owner := d.owner.getD payer
  let network ← required "network_config" d.networkConfig
  let sessionSlot ← required "session_slot_id" d.sessionSlotId
  let taskSlot ← required "task_slot_id" d.taskSlotId
  let session := (Derivation.session network sessionSlot).address program
  let task := (Derivation.task network taskSlot).address program
  Arguments.instruction program
    [.signing payer, .signing owner, .writable network, .writable session, .writable task,
      .readonly Address.systemProgram]
    (.createSession d.isOwned d.isConfidential)

/-- Activates a session: fills its vault and binds its task to a node. -/
structure SetSession where
  owner : Option Address := none
  networkConfig : Option Address := none
  sessionSlotId : Option UInt64 := none
  taskSlotId : Option UInt64 := none
  agentSlotId : Option UInt64 := none
  specificationCid : Option String := none
  /-- How many iterations the session may run; 0 sets no bound. -/
  maxIterations : UInt64 := 0
  initialDeposit : Option UInt64 := none
  computeNode : Option Address := none
  taskType : Option TaskType := none

/-- The owner signs and becomes the first contributor. -/
def SetSession.instruction (program : Address) (d : SetSession) :
    Except ClientError Instruction := do
  let owner ← required "owner" d.owner
  let network ← required "network_config" d.networkConfig
  let sessionSlot ← required "session_slot_id" d.sessionSlotId
  let taskSlot ← required "task_slot_id" d.taskSlotId
  let agentSlot ← required "agent_slot_id" d.agentSlotId
  let specificationCid ← required "specification_cid" d.specificationCid
  let initialDeposit ← required "initial_deposit" d.initialDeposit
  let computeNode ← required "compute_node" d.computeNode
  let taskType ← required "task_type" d.taskType
  let session := (Derivation.session network sessionSlot).address program
  let vault := (Derivation.sessionVault session).address program
  let contribution := (Derivation.contribution session owner).address program
  let task := (Derivation.task network taskSlot).address program
  let agent := (Derivation.agent network agentSlot).address program
  Arguments.instruction program
    [.signing owner, .writable session, .writable vault, .writable contribution, .writable task,
      .readonly agent, .readonly network, .readonly Address.systemProgram]
    (.setSession specificationCid d.maxIterations initialDeposit computeNode taskType)

/-- The accounts of a payment between a contributor and the vault of a session. -/
def vaultAccounts (program contributor network : Address) (slot : UInt64) : List AccountRef :=
  let session := (Derivation.session network slot).address program
  let vault := (Derivation.sessionVault session).address program
  let contribution := (Derivation.contribution session contributor).address program
  [.signing contributor, .writable session, .writable vault, .writable contribution,
    .readonly network, .readonly Address.systemProgram]

/-- Pays into the vault of a session. -/
structure ContributeToSession where
  contributor : Option Address := none
  networkConfig : Option Address := none
  sessionSlotId : Option UInt64 := none
  depositAmount : Option UInt64 := none

/-- The contributor signs. -/
def ContributeToSession.instruction (program : Address) (d : ContributeToSession) :
    Except ClientError Instruction := do
  let contributor ← required "contributor" d.contributor
  let network ← required "network_config" d.networkConfig
  let slot ← required "session_slot_id" d.sessionSlotId
  let depositAmount ← required "deposit_amount" d.depositAmount
  Arguments.instruction program (vaultAccounts program contributor network slot)
    (.contributeToSession depositAmount)

/-- Takes shares out of the vault of a session. -/
structure WithdrawFromSession where
  contributor : Option Address := none
  networkConfig : Option Address := none
  sessionSlotId : Option UInt64 := none
  sharesToBurn : Option UInt64 := none

/-- The contributor signs. -/
def WithdrawFromSession.instruction (program : Address) (d : WithdrawFromSession) :
    Except ClientError Instruction := do
  let contributor ← required "contributor" d.contributor
  let network ← required "network_config" d.networkConfig
  let slot ← required "session_slot_id" d.sessionSlotId
  let sharesToBurn ← required "shares_to_burn" d.sharesToBurn
  Arguments.instruction program (vaultAccounts program contributor network slot)
    (.withdrawFromSession sharesToBurn)

/-- Gives a task its input. -/
structure SubmitTask where
  owner : Option Address := none
  networkConfig : Option Address := none
  sessionSlotId : Option UInt64 := none
  taskSlotId : Option UInt64 := none
  inputCid : Option String := none

/-- The owner of the session signs. -/
def SubmitTask.instruction (program : Address) (d : SubmitTask) :
    Except ClientError Instruction := do
  let owner ← required "owner" d.owner
  let network ← required "network_config" d.networkConfig
  let sessionSlot ← required "session_slot_id" d.sessionSlotId
  let taskSlot ← required "task_slot_id" d.taskSlotId
  let inputCid ← required "input_cid" d.inputCid
  let task := (Derivation.task network taskSlot).address program
  let session := (Derivation.session network sessionSlot).address program
  Arguments.instruction program
    [.signing owner, .writable task, .writable session, .readonly network]
    (.submitTask inputCid)

/-- A node takes on a task and locks what it may cost. -/
structure ClaimTask where
  computeNode : Option Address := none
  networkConfig : Option Address := none
  sessionSlotId : Option UInt64 := none
  taskSlotId : Option UInt64 := none
  maxTaskCost : Option UInt64 := none

/-- The node signs. -/
def ClaimTask.instruction (program : Address) (d : ClaimTask) :
    Except ClientError Instruction := do
  let node ← required "compute_node" d.computeNode
  let network ← required "network_config" d.networkConfig
  let sessionSlot ← required "session_slot_id" d.sessionSlotId
  let taskSlot ← required "task_slot_id" d.taskSlotId
  let maxTaskCost ← required "max_task_cost" d.maxTaskCost
  let task := (Derivation.task network taskSlot).address program
  let session := (Derivation.session network sessionSlot).address program
  let vault := (Derivation.sessionVault session).address program
  let info := (Derivation.nodeInfo node).address program
  Arguments.instruction program
    [.signing node, .writable task, .writable session, .writable vault, .readonly info,
      .readonly network]
    (.claimTask maxTaskCost)

/-- A node hands in the result of a task. -/
structure SubmitTaskResult where
  computeNode : Option Address := none
  networkConfig : Option Address := none
  taskSlotId : Option UInt64 := none
  inputCid : Option String := none
  outputCid : Option String := none

/-- The node signs. -/
def SubmitTaskResult.instruction (program : Address) (d : SubmitTaskResult) :
    Except ClientError Instruction := do
  let node ← required "compute_node" d.computeNode
  let network ← required "network_config" d.networkConfig
  let taskSlot ← required "task_slot_id" d.taskSlotId
  let inputCid ← required "input_cid" d.inputCid
  let outputCid ← required "output_cid" d.outputCid
  let task := (Derivation.task network taskSlot).address program
  Arguments.instruction program [.signing node, .writable task, .readonly network]
    (.submitTaskResult inputCid outputCid)

/-- A validator judges the result of a task. The verdict itself is in the signed message of the
instruction before this one. -/
structure SubmitTaskValidation where
  validator : Option Address := none
  networkConfig : Option Address := none
  sessionSlotId : Option UInt64 := none
  taskSlotId : Option UInt64 := none
  /-- The node that handed in the result. -/
  computeNode : Option Address := none

/-- The validator signs; the node is paid into its treasury. -/
def SubmitTaskValidation.instruction (program : Address) (d : SubmitTaskValidation) :
    Except ClientError Instruction := do
  let validator ← required "validator" d.validator
  let network ← required "network_config" d.networkConfig
  let sessionSlot ← required "session_slot_id" d.sessionSlotId
  let taskSlot ← required "task_slot_id" d.taskSlotId
  let node ← required "compute_node" d.computeNode
  let session := (Derivation.session network sessionSlot).address program
  let vault := (Derivation.sessionVault session).address program
  let task := (Derivation.task network taskSlot).address program
  let info := (Derivation.nodeInfo node).address program
  let treasury := (Derivation.nodeTreasury info).address program
  let validatorInfo := (Derivation.nodeInfo validator).address program
  Arguments.instruction program
    [.signing validator, .writable session, .writable vault, .writable task, .writable info,
      .writable treasury, .readonly validatorInfo, .readonly network,
      .readonly Address.instructionsSysvar, .readonly Address.systemProgram]
    .submitTaskValidation

end ComputeNet.Draft
