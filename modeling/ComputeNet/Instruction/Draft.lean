import ComputeNet.Instruction.Work

/-!
# Instruction drafts

A draft of any of the program's instructions.
-/

namespace ComputeNet

/-- What has been filled in of an instruction. -/
inductive Draft where
  | initializeNetwork (draft : Draft.InitializeNetwork)
  | updateNetworkConfig (draft : Draft.UpdateNetworkConfig)
  | registerNode (draft : Draft.RegisterNode)
  | claimComputeNode (draft : Draft.ClaimComputeNode)
  | claimConfidentialNode (draft : Draft.ClaimConfidentialNode)
  | validatePublicNode (draft : Draft.ValidatePublicNode)
  | activateNode (draft : Draft.ActivateNode)
  | createAgent (draft : Draft.CreateAgent)
  | validateAgent (draft : Draft.ValidateAgent)
  | createSession (draft : Draft.CreateSession)
  | setSession (draft : Draft.SetSession)
  | contributeToSession (draft : Draft.ContributeToSession)
  | withdrawFromSession (draft : Draft.WithdrawFromSession)
  | submitTask (draft : Draft.SubmitTask)
  | claimTask (draft : Draft.ClaimTask)
  | submitTaskResult (draft : Draft.SubmitTaskResult)
  | submitTaskValidation (draft : Draft.SubmitTaskValidation)

/-- The instruction of a draft for a program, or the first field that is missing. -/
def Draft.instruction (program : Address) : Draft → Except ClientError Instruction
  | .initializeNetwork d => d.instruction program
  | .updateNetworkConfig d => d.instruction program
  | .registerNode d => d.instruction program
  | .claimComputeNode d => d.instruction program
  | .claimConfidentialNode d => d.instruction program
  | .validatePublicNode d => d.instruction program
  | .activateNode d => d.instruction program
  | .createAgent d => d.instruction program
  | .validateAgent d => d.instruction program
  | .createSession d => d.instruction program
  | .setSession d => d.instruction program
  | .contributeToSession d => d.instruction program
  | .withdrawFromSession d => d.instruction program
  | .submitTask d => d.instruction program
  | .claimTask d => d.instruction program
  | .submitTaskResult d => d.instruction program
  | .submitTaskValidation d => d.instruction program

end ComputeNet
