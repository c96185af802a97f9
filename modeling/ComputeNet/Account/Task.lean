import ComputeNet.Account.Basic

/-!
# Task accounts

What the program keeps of a task. The slot of the session that a task is bound to is optional, so
that only the accounts of bound tasks have their status byte in one place.
-/

namespace ComputeNet

/-- Where a task stands. -/
inductive TaskStatus where
  | ready
  | pending
  | processing
  | awaitingValidation
deriving DecidableEq, Repr

instance : Enumeration TaskStatus where
  members := [.ready, .pending, .processing, .awaitingValidation]
  name
    | .ready => "Ready"
    | .pending => "Pending"
    | .processing => "Processing"
    | .awaitingValidation => "AwaitingValidation"

instance : Borsh TaskStatus := Borsh.ofTags TaskStatus

/-- What kind of work a task is. -/
inductive TaskType where
  /-- The model with a number completes the input. -/
  | completion (model : UInt64)
  /-- The module with a number runs on the input. -/
  | custom (number : UInt64)
  /-- A person answers. -/
  | humanInLoop
deriving DecidableEq, Repr

/-- A tag, and the number of the model or the module. -/
instance : Borsh TaskType where
  encode
    | .completion model => 0 :: Borsh.encode model
    | .custom number => 1 :: Borsh.encode number
    | .humanInLoop => [2]
  decode bs := do
    let (tag, rest) ← Borsh.takeByte bs
    if tag = 0 then
      let (model, rest) ← Borsh.decode rest
      return (.completion model, rest)
    else if tag = 1 then
      let (number, rest) ← Borsh.decode rest
      return (.custom number, rest)
    else if tag = 2 then return (.humanInLoop, rest)
    else throw (.badTag tag)

/-- What a validator says of a task result. -/
inductive ValidationStatus where
  | pending
  | approved
  | rejected
deriving DecidableEq, Repr

instance : Enumeration ValidationStatus where
  members := [.pending, .approved, .rejected]
  name
    | .pending => "Pending"
    | .approved => "Approved"
    | .rejected => "Rejected"

instance : Borsh ValidationStatus := Borsh.ofTags ValidationStatus

/-- A validator of a task and its verdict. -/
structure Validator where
  pubkey : Address
  status : ValidationStatus
deriving DecidableEq

namespace Validator

def fields (v : Validator) : Address × ValidationStatus := (v.pubkey, v.status)

instance : Borsh Validator := Borsh.ofFields fields fun (pubkey, status) => { pubkey, status }

end Validator

structure Task where
  taskSlotId : UInt64
  sessionSlotId : Option UInt64
  status : TaskStatus
  computeNode : Option Address
  taskType : TaskType
  chainProof : Digest
  taskIndex : UInt64
  maxTaskCost : UInt64
  maxCallCount : UInt64
  callCount : UInt64
  inputCid : Option String
  outputCid : Option String
  pendingInputCid : Option String
  pendingOutputCid : Option String
  validations : List Validator
  bump : UInt8
deriving DecidableEq

namespace Task

def fields (t : Task) :
    UInt64 × Option UInt64 × TaskStatus × Option Address × TaskType × Digest × UInt64 × UInt64 ×
      UInt64 × UInt64 × Option String × Option String × Option String × Option String ×
      List Validator × UInt8 :=
  (t.taskSlotId, t.sessionSlotId, t.status, t.computeNode, t.taskType, t.chainProof, t.taskIndex,
    t.maxTaskCost, t.maxCallCount, t.callCount, t.inputCid, t.outputCid, t.pendingInputCid,
    t.pendingOutputCid, t.validations, t.bump)

instance : Account Task where
  toBorsh := Borsh.ofFields fields
    fun (taskSlotId, sessionSlotId, status, computeNode, taskType, chainProof, taskIndex,
        maxTaskCost, maxCallCount, callCount, inputCid, outputCid, pendingInputCid,
        pendingOutputCid, validations, bump) =>
      { taskSlotId, sessionSlotId, status, computeNode, taskType, chainProof, taskIndex,
        maxTaskCost, maxCallCount, callCount, inputCid, outputCid, pendingInputCid,
        pendingOutputCid, validations, bump }
  name := "Task"

/-- Where the status byte of a task that is bound to a session stands in account data: after the
discriminator, the slot, the mark of the session slot and that slot. -/
def statusOffset : UInt64 := 8 + 8 + 1 + 8

/-- How many validators approve the result. -/
def approvals (t : Task) : Nat := t.validations.countP fun v => v.status = .approved

end Task

end ComputeNet
