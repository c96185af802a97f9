import ComputeNet.Address.Basic

/-!
# Instructions

What a transaction asks of a program: the accounts it may touch and the bytes that say what to do.
-/

namespace ComputeNet

/-- An account that an instruction names. -/
structure AccountRef where
  address : Address
  isSigner : Bool
  isWritable : Bool
deriving DecidableEq

namespace AccountRef

def signing (address : Address) : AccountRef := ⟨address, true, true⟩

def writable (address : Address) : AccountRef := ⟨address, false, true⟩

def readonly (address : Address) : AccountRef := ⟨address, false, false⟩

end AccountRef

/-- A request to a program. -/
structure Instruction where
  program : Address
  accounts : List AccountRef
  data : Bytes
deriving DecidableEq

end ComputeNet
