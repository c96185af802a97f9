import ComputeNet.Bytes
import ComputeNet.Text.Base58

/-!
# Addresses

Accounts, programs and the holders of key pairs are known by 32-byte addresses, written in base
58. The well-known ones are given here by their texts.
-/

namespace ComputeNet

/-- The name of an account, a program or the holder of a key pair. -/
abbrev Address := FixedBytes 32

/-- The signature of a transaction, which also names it. -/
abbrev Signature := FixedBytes 64

abbrev Digest := FixedBytes 32

namespace Address

def toText (a : Address) : String := Base58.encode a.toList

def ofText (s : String) : Except Base58.Error Address := Base58.decode 32 s

/-- The address of a text that is known to name one. -/
def known (s : String) : Address := (ofText s).toOption.getD default

/-- The program that keeps the network's accounts. -/
def program : Address := known "C821M111okror4TN2gjdUBJK58Mbd2s94pZc8xH6S5BQ"

/-- The program that creates accounts. -/
def systemProgram : Address := known "11111111111111111111111111111111"

/-- The account through which a program sees the other instructions of its transaction. -/
def instructionsSysvar : Address := known "Sysvar1nstructions1111111111111111111111111"

/-- The program that checks Ed25519 signatures. -/
def ed25519Program : Address := known "Ed25519SigVerify111111111111111111111111111"

end Address

end ComputeNet
