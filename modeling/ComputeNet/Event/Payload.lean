import ComputeNet.Address.Basic
import ComputeNet.Borsh.Basic

/-!
# Event payloads

What the program reports of each kind of event.
-/

namespace ComputeNet

/-- A node took on a task. -/
structure TaskClaimed where
  sessionSlotId : UInt64
  taskSlotId : UInt64
  computeNode : Address
  maxTaskCost : UInt64
deriving DecidableEq

/-- A node handed in the result of a task. -/
structure TaskResultSubmitted where
  sessionSlotId : UInt64
  taskSlotId : UInt64
  inputCid : String
  outputCid : String
deriving DecidableEq

/-- A validator judged the result of a task. -/
structure TaskValidationSubmitted where
  sessionSlotId : UInt64
  taskSlotId : UInt64
  validator : Address
  paymentAmount : UInt64
  approved : Bool
  sessionCompleted : Bool
  currentIteration : UInt64
  vaultBalance : UInt64
  lockedForTasks : UInt64
deriving DecidableEq

/-- A session was set up. -/
structure SessionSet where
  sessionSlotId : UInt64
  owner : Address
  agentSlotId : UInt64
  taskSlotId : UInt64
  specificationCid : String
  maxIterations : UInt64
  initialDeposit : UInt64
deriving DecidableEq

/-- Someone paid into a session. -/
structure ContributionMade where
  sessionSlotId : UInt64
  contributor : Address
  depositAmount : UInt64
  sharesMinted : UInt64
  totalShares : UInt64
deriving DecidableEq

/-- A session ran its last iteration. -/
structure SessionCompleted where
  sessionSlotId : UInt64
  finalIteration : UInt64
  vaultBalance : UInt64
deriving DecidableEq

/-- A validator's verdict on a node, perhaps within a task. -/
structure NodeVerdict where
  node : Address
  validator : Address
  sessionSlotId : Option UInt64
  taskSlotId : Option UInt64
deriving DecidableEq

/-- An agent was created. -/
structure AgentCreated where
  agentSlotId : UInt64
  owner : Address
  agentConfigCid : String
deriving DecidableEq

def TaskClaimed.fields (e : TaskClaimed) : UInt64 × UInt64 × Address × UInt64 :=
  (e.sessionSlotId, e.taskSlotId, e.computeNode, e.maxTaskCost)

def TaskResultSubmitted.fields (e : TaskResultSubmitted) : UInt64 × UInt64 × String × String :=
  (e.sessionSlotId, e.taskSlotId, e.inputCid, e.outputCid)

def TaskValidationSubmitted.fields (e : TaskValidationSubmitted) :
    UInt64 × UInt64 × Address × UInt64 × Bool × Bool × UInt64 × UInt64 × UInt64 :=
  (e.sessionSlotId, e.taskSlotId, e.validator, e.paymentAmount, e.approved, e.sessionCompleted,
    e.currentIteration, e.vaultBalance, e.lockedForTasks)

def SessionSet.fields (e : SessionSet) :
    UInt64 × Address × UInt64 × UInt64 × String × UInt64 × UInt64 :=
  (e.sessionSlotId, e.owner, e.agentSlotId, e.taskSlotId, e.specificationCid, e.maxIterations,
    e.initialDeposit)

def ContributionMade.fields (e : ContributionMade) :
    UInt64 × Address × UInt64 × UInt64 × UInt64 :=
  (e.sessionSlotId, e.contributor, e.depositAmount, e.sharesMinted, e.totalShares)

def SessionCompleted.fields (e : SessionCompleted) : UInt64 × UInt64 × UInt64 :=
  (e.sessionSlotId, e.finalIteration, e.vaultBalance)

def NodeVerdict.fields (e : NodeVerdict) : Address × Address × Option UInt64 × Option UInt64 :=
  (e.node, e.validator, e.sessionSlotId, e.taskSlotId)

def AgentCreated.fields (e : AgentCreated) : UInt64 × Address × String :=
  (e.agentSlotId, e.owner, e.agentConfigCid)

instance : Borsh TaskClaimed :=
  Borsh.ofFields TaskClaimed.fields fun (sessionSlotId, taskSlotId, computeNode, maxTaskCost) =>
    { sessionSlotId, taskSlotId, computeNode, maxTaskCost }

instance : Borsh TaskResultSubmitted :=
  Borsh.ofFields TaskResultSubmitted.fields
    fun (sessionSlotId, taskSlotId, inputCid, outputCid) =>
      { sessionSlotId, taskSlotId, inputCid, outputCid }

instance : Borsh TaskValidationSubmitted :=
  Borsh.ofFields TaskValidationSubmitted.fields
    fun (sessionSlotId, taskSlotId, validator, paymentAmount, approved, sessionCompleted,
        currentIteration, vaultBalance, lockedForTasks) =>
      { sessionSlotId, taskSlotId, validator, paymentAmount, approved, sessionCompleted,
        currentIteration, vaultBalance, lockedForTasks }

instance : Borsh SessionSet :=
  Borsh.ofFields SessionSet.fields
    fun (sessionSlotId, owner, agentSlotId, taskSlotId, specificationCid, maxIterations,
        initialDeposit) =>
      { sessionSlotId, owner, agentSlotId, taskSlotId, specificationCid, maxIterations,
        initialDeposit }

instance : Borsh ContributionMade :=
  Borsh.ofFields ContributionMade.fields
    fun (sessionSlotId, contributor, depositAmount, sharesMinted, totalShares) =>
      { sessionSlotId, contributor, depositAmount, sharesMinted, totalShares }

instance : Borsh SessionCompleted :=
  Borsh.ofFields SessionCompleted.fields fun (sessionSlotId, finalIteration, vaultBalance) =>
    { sessionSlotId, finalIteration, vaultBalance }

instance : Borsh NodeVerdict :=
  Borsh.ofFields NodeVerdict.fields fun (node, validator, sessionSlotId, taskSlotId) =>
    { node, validator, sessionSlotId, taskSlotId }

instance : Borsh AgentCreated :=
  Borsh.ofFields AgentCreated.fields fun (agentSlotId, owner, agentConfigCid) =>
    { agentSlotId, owner, agentConfigCid }

end ComputeNet
