import ComputeNet.Hash.Sha256
import ComputeNet.Text.Utf8

/-!
# Discriminators

Account data, event payloads and instruction data begin with eight bytes that tell their kind:
the front of the hash of a namespace and a name.
-/

namespace ComputeNet

/-- The eight bytes that tell what follows them. -/
abbrev Discriminator := FixedBytes 8

/-- The discriminator of a name in a namespace (`sighash`). -/
def Discriminator.ofName (space name : String) : Discriminator :=
  let digest := Sha256.hash (Utf8.encode space ++ Utf8.encode ":" ++ Utf8.encode name)
  .take 8 digest.toList (by simp [digest.length_toList])

end ComputeNet
