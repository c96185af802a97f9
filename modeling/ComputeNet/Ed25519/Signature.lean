import ComputeNet.Ed25519.Point
import ComputeNet.Hash.Sha512

/-!
# Ed25519 signatures

A secret key is a seed of 32 bytes. Its hash gives a scalar, whose multiple of the base point is
the public key, and a secret that makes the nonce of each message. Signing is deterministic.
-/

namespace ComputeNet.Ed25519

/-- The order of the base point. -/
def order : Nat := Nat.pow 2 252 + 27742317777372353535851937790883648493

/-- The secret scalar of a seed: the first half of its hash, rounded down to a multiple of eight
and brought between 2^254 and 2^255. -/
def scalar (seed : FixedBytes 32) : Nat :=
  let v := ofLittleEndian ((Sha512.hash seed.toList).toList.take 32) % Nat.pow 2 254
  v / 8 * 8 + Nat.pow 2 254

/-- The second half of the hash of a seed. -/
def nonceKey (seed : FixedBytes 32) : Bytes := (Sha512.hash seed.toList).toList.drop 32

/-- The number of a digest, modulo the order. -/
def challenge (message : Bytes) : Nat := ofLittleEndian (Sha512.hash message).toList % order

/-- The public key of a seed. -/
def publicKey (seed : FixedBytes 32) : FixedBytes 32 := (Point.base.smul (scalar seed)).encode

/-- The signature of a message under a seed. -/
def sign (seed : FixedBytes 32) (message : Bytes) : FixedBytes 64 :=
  let nonce := challenge (nonceKey seed ++ message)
  let commitment := (Point.base.smul nonce).encode
  let k := challenge (commitment.toList ++ (publicKey seed).toList ++ message)
  let response := FixedBytes.ofNat 32 ((nonce + k * scalar seed) % order)
  ⟨commitment.toList ++ response.toList, by
    simp [commitment.length_toList, response.length_toList]⟩

end ComputeNet.Ed25519
