import ComputeNet.Enumeration

/-!
# Program errors

The errors that the on-chain program reports by number. The numbers start at `codeOffset` and
follow the order of the members.
-/

namespace ComputeNet

/-- An error of the on-chain program. -/
inductive ProgramError where
  | overflow
  | missingAccount
  | needAtLeastOneCodeMeasurement
  | tooManyCodeMeasurements
  | invalidPdaAccount
  | accountAlreadyInitialized
  | invalidNodeType
  | invalidNodeStatus
  | invalidTeeSignature
  | codeMeasurementNotApproved
  | nodeAlreadyRegistered
  | invalidInstructionSysvar
  | badEd25519Program
  | badEd25519Accounts
  | invalidValidatorTeeSigningPubkey
  | invalidComputeNodePubkey
  | underflow
  | insufficientBalance
  | depositTooSmall
  | invalidSessionOwner
  | invalidTaskStatus
  | invalidAgentStatus
  | vaultHasLeftoverFunds
  | invalidValidatorMessage
  | invalidCid
  | invalidAuthority
  | duplicateValidation
  | noApprovedNodes
  | validatorNotAssigned
  | notEnoughValidators
  | invalidSession
  | invalidSessionStatus
deriving DecidableEq, Repr

namespace ProgramError

instance : Enumeration ProgramError where
  members := [
    .overflow, .missingAccount, .needAtLeastOneCodeMeasurement, .tooManyCodeMeasurements,
    .invalidPdaAccount, .accountAlreadyInitialized, .invalidNodeType, .invalidNodeStatus,
    .invalidTeeSignature, .codeMeasurementNotApproved, .nodeAlreadyRegistered,
    .invalidInstructionSysvar, .badEd25519Program, .badEd25519Accounts,
    .invalidValidatorTeeSigningPubkey, .invalidComputeNodePubkey, .underflow,
    .insufficientBalance, .depositTooSmall, .invalidSessionOwner, .invalidTaskStatus,
    .invalidAgentStatus, .vaultHasLeftoverFunds, .invalidValidatorMessage, .invalidCid,
    .invalidAuthority, .duplicateValidation, .noApprovedNodes, .validatorNotAssigned,
    .notEnoughValidators, .invalidSession, .invalidSessionStatus]
  name
    | .overflow => "Overflow"
    | .missingAccount => "MissingAccount"
    | .needAtLeastOneCodeMeasurement => "NeedAtLeastOneCodeMeasurement"
    | .tooManyCodeMeasurements => "TooManyCodeMeasurements"
    | .invalidPdaAccount => "InvalidPDAAccount"
    | .accountAlreadyInitialized => "AccountAlreadyInitialized"
    | .invalidNodeType => "InvalidNodeType"
    | .invalidNodeStatus => "InvalidNodeStatus"
    | .invalidTeeSignature => "InvalidTeeSignature"
    | .codeMeasurementNotApproved => "CodeMeasurementNotApproved"
    | .nodeAlreadyRegistered => "NodeAlreadyRegistered"
    | .invalidInstructionSysvar => "InvalidInstructionSysvar"
    | .badEd25519Program => "BadEd25519Program"
    | .badEd25519Accounts => "BadEd25519Accounts"
    | .invalidValidatorTeeSigningPubkey => "InvalidValidatorTeeSigningPubkey"
    | .invalidComputeNodePubkey => "InvalidComputeNodePubkey"
    | .underflow => "Underflow"
    | .insufficientBalance => "InsufficientBalance"
    | .depositTooSmall => "DepositTooSmall"
    | .invalidSessionOwner => "InvalidSessionOwner"
    | .invalidTaskStatus => "InvalidTaskStatus"
    | .invalidAgentStatus => "InvalidAgentStatus"
    | .vaultHasLeftoverFunds => "VaultHasLeftoverFunds"
    | .invalidValidatorMessage => "InvalidValidatorMessage"
    | .invalidCid => "InvalidCID"
    | .invalidAuthority => "InvalidAuthority"
    | .duplicateValidation => "DuplicateValidation"
    | .noApprovedNodes => "NoApprovedNodes"
    | .validatorNotAssigned => "ValidatorNotAssigned"
    | .notEnoughValidators => "NotEnoughValidators"
    | .invalidSession => "InvalidSession"
    | .invalidSessionStatus => "InvalidSessionStatus"

def message : ProgramError → String
  | .overflow => "Overflow"
  | .missingAccount => "Missing account"
  | .needAtLeastOneCodeMeasurement => "Need at least one code measurement"
  | .tooManyCodeMeasurements => "At most 10 code measurements are allowed"
  | .invalidPdaAccount => "Invalid PDA account"
  | .accountAlreadyInitialized => "Account already initialized"
  | .invalidNodeType => "Invalid node type"
  | .invalidNodeStatus => "Invalid node status"
  | .invalidTeeSignature => "Invalid TEE signature"
  | .codeMeasurementNotApproved => "Code measurement not approved"
  | .nodeAlreadyRegistered => "Node already registered"
  | .invalidInstructionSysvar => "Invalid instruction sysvar"
  | .badEd25519Program => "Bad Ed25519 program"
  | .badEd25519Accounts => "Bad Ed25519 accounts"
  | .invalidValidatorTeeSigningPubkey => "Invalid validator TEE signing pubkey"
  | .invalidComputeNodePubkey => "Invalid compute node pubkey"
  | .underflow => "Underflow"
  | .insufficientBalance => "Insufficient balance"
  | .depositTooSmall => "Deposit too small"
  | .invalidSessionOwner => "Invalid session owner"
  | .invalidTaskStatus => "Invalid task status"
  | .invalidAgentStatus => "Invalid agent status"
  | .vaultHasLeftoverFunds => "Vault has leftover funds from previous session"
  | .invalidValidatorMessage => "Invalid validator message"
  | .invalidCid => "Invalid ipfs CID"
  | .invalidAuthority => "Invalid authority"
  | .duplicateValidation => "Duplicate validation"
  | .noApprovedNodes => "No approved nodes available for task assignment"
  | .validatorNotAssigned => "Validator was not assigned to this task"
  | .notEnoughValidators => "Not enough approved nodes to assign required validators"
  | .invalidSession => "Invalid session"
  | .invalidSessionStatus => "Invalid session status"

/-- The number of the first error. -/
def codeOffset : UInt32 := 6000

/-- The error with a number (`from_custom_code`). -/
def ofCode? (code : UInt32) : Option ProgramError :=
  if code < codeOffset then none
  else (Enumeration.members : List ProgramError)[(code - codeOffset).toNat]?

end ProgramError

end ComputeNet
