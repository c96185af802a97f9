import ComputeNet.Ed25519.Signature
import ComputeNet.Instruction.Work

/-!
# Signed verdicts

A validator's verdict on a task result travels as a signed message in an instruction of its own,
which has the runtime check the signature. The instruction that acts on the verdict follows it.
-/

namespace ComputeNet

/-- A verdict on a task result. -/
structure ValidationMessage where
  sessionSlotId : UInt64
  taskSlotId : UInt64
  paymentAmount : UInt64
  validationProof : Digest
  approved : Bool
  sessionCompleted : Bool
deriving DecidableEq

namespace ValidationMessage

def fields (m : ValidationMessage) : UInt64 × UInt64 × UInt64 × Digest × Bool × Bool :=
  (m.sessionSlotId, m.taskSlotId, m.paymentAmount, m.validationProof, m.approved,
    m.sessionCompleted)

instance : Borsh ValidationMessage :=
  Borsh.ofFields fields
    fun (sessionSlotId, taskSlotId, paymentAmount, validationProof, approved,
        sessionCompleted) =>
      { sessionSlotId, taskSlotId, paymentAmount, validationProof, approved, sessionCompleted }

end ValidationMessage

namespace Instruction

/-- Where a part of the data of a signature check begins: after two bytes for the count of
signatures and seven 16-bit numbers come the public key, the signature and the message. -/
def publicKeyOffset : Nat := 2 + 7 * 2

def signatureOffset : Nat := publicKeyOffset + 32

def messageOffset : Nat := signatureOffset + 64

/-- The number that stands for the instruction itself. -/
def thisInstruction : Nat := 0xFFFF

/-- The instruction that has the runtime check the signature of a message under a seed
(`to_ed25519_instruction`). Every part is in the data of the instruction itself. -/
def checkSignature (seed : FixedBytes 32) (message : Bytes) : Instruction where
  program := Address.ed25519Program
  accounts := []
  data :=
    [1, 0] ++
      [signatureOffset, thisInstruction, publicKeyOffset, thisInstruction, messageOffset,
        message.length, thisInstruction].flatMap (littleEndian 2) ++
      (Ed25519.publicKey seed).toList ++ (Ed25519.sign seed message).toList ++ message

end Instruction

/-- The signature check of a verdict and the instruction that acts on it, in the order in which
they go into a transaction. -/
def Draft.SubmitTaskValidation.instructions (program : Address) (d : Draft.SubmitTaskValidation)
    (message : ValidationMessage) (seed : FixedBytes 32) :
    Except ClientError (List Instruction) := do
  let validation ← d.instruction program
  return [.checkSignature seed (Borsh.encode message), validation]

end ComputeNet
