import ComputeNet.Error.Basic
import ComputeNet.Transaction.KeyPair
import ComputeNet.Transaction.Message

/-!
# Transactions

A message with the signatures of all who must sign it, in the order of the message's addresses.
-/

namespace ComputeNet

/-- A signed message. -/
structure Transaction where
  signatures : List Signature
  message : Message
deriving DecidableEq

namespace Transaction

/-- Signs a message with the given keys. A key that the message does not ask for is an error even
where the message cannot be written, and that comes before a missing key. -/
def sign (keys : List KeyPair) (message : Message) :
    Except (Failure SigningError) Transaction := do
  if keys.any fun k => k.address ∉ message.signers then throw (.error .unexpectedKey)
  let some bytes := message.encode | throw .abort
  match message.signers.mapM fun signer => keys.find? fun k => k.address = signer with
  | none => throw (.error .missingKey)
  | some signing => return { signatures := signing.map fun k => k.sign bytes, message }

end Transaction

end ComputeNet
