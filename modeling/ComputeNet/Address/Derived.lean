import ComputeNet.Address.Basic
import ComputeNet.Ed25519.Point
import ComputeNet.Hash.Sha256
import ComputeNet.Text.Utf8

/-!
# Derived addresses

The accounts of a program sit at addresses that nobody holds a key for. Such an address is the
hash of a few seeds, a bump byte and the program's address, with the bump as the largest for which
the hash is no point of the signature curve. `Derivation` names the accounts of the network and
what each is derived from (`find_network_config_pda`, `find_node_info_pda` and their like).
-/

namespace ComputeNet

/-- An account of the network, with the keys that its address is derived from. -/
inductive Derivation where
  /-- The settings of the network that an authority runs. -/
  | networkConfig (authority : Address)
  /-- What the network knows of a node. -/
  | nodeInfo (node : Address)
  /-- The earnings of a node. -/
  | nodeTreasury (nodeInfo : Address)
  | agent (network : Address) (slot : UInt64)
  | session (network : Address) (slot : UInt64)
  /-- The funds of a session. -/
  | sessionVault (session : Address)
  | task (network : Address) (slot : UInt64)
  /-- What one contributor holds of a session. -/
  | contribution (session contributor : Address)
deriving DecidableEq

namespace Derivation

def slotSeed (slot : UInt64) : Bytes := littleEndian 8 slot.toNat

/-- The seeds of an account: the word for its kind, then its keys. -/
def seeds : Derivation → List Bytes
  | .networkConfig authority => [Utf8.encode "dac_network_config", authority.toList]
  | .nodeInfo node => [Utf8.encode "node_info", node.toList]
  | .nodeTreasury info => [Utf8.encode "node_treasury", info.toList]
  | .agent network slot => [Utf8.encode "agent", network.toList, slotSeed slot]
  | .session network slot => [Utf8.encode "session", network.toList, slotSeed slot]
  | .sessionVault owner => [Utf8.encode "session_vault", owner.toList]
  | .task network slot => [Utf8.encode "task", network.toList, slotSeed slot]
  | .contribution owner contributor =>
      [Utf8.encode "contribution", owner.toList, contributor.toList]

/-- The bytes that are hashed for an address with a given bump. -/
def preimage (program : Address) (d : Derivation) (bump : UInt8) : Bytes :=
  d.seeds.flatten ++ bump :: program.toList ++ Utf8.encode "ProgramDerivedAddress"

def addressWith (program : Address) (d : Derivation) (bump : UInt8) : Address :=
  Sha256.hash (d.preimage program bump)

/-- The bumps in the order in which they are tried: 255 down to 1. -/
def bumps : List UInt8 := (List.range 255).map fun i => UInt8.ofNat (255 - i)

/-- The first bump whose address is off the curve. An address is off the curve as often as not, so
that the search ends early; were all of them points, 0 would stand in. -/
def bump (program : Address) (d : Derivation) : UInt8 :=
  (bumps.find? fun b => !Ed25519.isEncoding (d.addressWith program b)).getD 0

def address (program : Address) (d : Derivation) : Address :=
  d.addressWith program (d.bump program)

/-- The addresses of the first `count` tasks of a network, in slot order (`find_task_pdas`). -/
def tasks (program network : Address) (count : Nat) : List Address :=
  (List.range count).map fun slot => (Derivation.task network (UInt64.ofNat slot)).address program

end Derivation

end ComputeNet
