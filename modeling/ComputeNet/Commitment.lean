import ComputeNet.Address.Basic
import ComputeNet.Hash.Sha256
import ComputeNet.Text.Utf8

/-!
# Commitments

Hashes by which the members of a network agree on content without showing it.
-/

namespace ComputeNet.Commitment

/-- The first link of every chain of task proofs (`compute_genesis_hash`). -/
def genesis : Digest := Sha256.hash (Utf8.encode "DAC_GENESIS")

/-- What a validator signs for a task result: the hash of the content identifiers of its input
and its output, one right after the other (`compute_validation_proof`). -/
def taskResult (inputCid outputCid : String) : Digest :=
  Sha256.hash (Utf8.encode inputCid ++ Utf8.encode outputCid)

end ComputeNet.Commitment
