import ComputeNet.Address.Basic
import ComputeNet.Ed25519.Signature

/-!
# Key pairs

A secret key with the address that belongs to it.
-/

namespace ComputeNet

/-- A secret key and its public key. -/
structure KeyPair where
  seed : FixedBytes 32
  address : Address
  /-- The address is the public key of the seed. -/
  address_eq : address = Ed25519.publicKey seed

namespace KeyPair

/-- The key pair of a seed. -/
def ofSeed (seed : FixedBytes 32) : KeyPair := ⟨seed, Ed25519.publicKey seed, rfl⟩

def sign (k : KeyPair) (message : Bytes) : Signature := Ed25519.sign k.seed message

end KeyPair

end ComputeNet
