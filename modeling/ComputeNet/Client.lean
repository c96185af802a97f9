import ComputeNet.Account.NetworkConfig
import ComputeNet.History.Replay
import ComputeNet.Ledger.Endpoint
import ComputeNet.Settings.Basic
import ComputeNet.Status.Wait

/-!
# Clients

A client is bound to one network of one program. It reads accounts one by one (`get_node_info`,
`get_agent`, `get_session` and their like), lists those with a status (`list_nodes_by_status` and
its like), sends transactions (`send_instructions`), and says how waits (`wait_for_status`) and
histories (`session_event_history`, `program_event_history`) go about their work.
-/

namespace ComputeNet

structure Client where
  program : Address
  /-- The address of the network's account. -/
  network : Address
  monitor : MonitorSettings := {}
  /-- The client has means to follow changes. -/
  canSubscribe : Bool := false

/-- The funds of a session. -/
structure VaultBalance where
  sessionSlotId : UInt64
  vault : Address
  /-- 0 if the vault has no account. -/
  lamports : UInt64
deriving DecidableEq

namespace Client

/-- The client for the network that an authority runs. -/
def ofAuthority (program authority : Address) : Client where
  program
  network := (Derivation.networkConfig authority).address program

/-- The client that settings ask for. -/
def ofSettings (s : Settings) : Except ClientError Client := do
  let program ← s.program
  let authority ← s.authority
  return { ofAuthority program authority with monitor := s.monitor }

/-- The account of the network that is derived in a given way. -/
def addressOf (c : Client) (d : Derivation) : Address := d.address c.program

/-- The record of the account at an address. -/
def fetch {α : Type} [Account α] (e : Endpoint) (address : Address) : Except ClientError α := do
  match ← e.account address with
  | none => throw (.accountNotFound (Account.name α) address)
  | some account => Account.ofData account.data

def networkConfig (c : Client) (e : Endpoint) : Except ClientError NetworkConfig :=
  fetch e c.network

def nodeInfo (c : Client) (e : Endpoint) (node : Address) : Except ClientError NodeInfo :=
  fetch e (c.addressOf (.nodeInfo node))

def agent (c : Client) (e : Endpoint) (slot : UInt64) : Except ClientError Agent :=
  fetch e (c.addressOf (.agent c.network slot))

def sessionAddress (c : Client) (slot : UInt64) : Address :=
  c.addressOf (.session c.network slot)

def session (c : Client) (e : Endpoint) (slot : UInt64) : Except ClientError Session :=
  fetch e (c.sessionAddress slot)

def task (c : Client) (e : Endpoint) (slot : UInt64) : Except ClientError Task :=
  fetch e (c.addressOf (.task c.network slot))

/-- What a contributor holds of the session in a slot. -/
def contribution (c : Client) (e : Endpoint) (slot : UInt64) (contributor : Address) :
    Except ClientError Contribution :=
  fetch e (c.addressOf (.contribution (c.sessionAddress slot) contributor))

/-- The accounts of a kind that have a status, with their addresses (`list_by_status`). -/
def listByStatus (e : Endpoint) (kind : EntityKind) (status : kind.Status) :
    Except ClientError (List (Address × kind.Record)) := do
  let accounts ← e.listing (kind.watch.filters status)
  return kind.watch.select status accounts

/-- The funds of the sessions in some slots, in the order asked for
(`get_session_vault_balances`). Accounts that the answer of the endpoint leaves out count as
missing. -/
def vaultBalances (c : Client) (e : Endpoint) (slots : List UInt64) :
    Except ClientError (List VaultBalance) := do
  let vaults := slots.map fun slot => c.addressOf (.sessionVault (c.sessionAddress slot))
  let accounts ← e.accounts vaults
  return (slots.zip vaults).zipIdx.map fun ((sessionSlotId, vault), i) =>
    { sessionSlotId, vault, lamports := (accounts[i]?.join.map (·.lamports)).getD 0 }

/-- The payer's key and those of the signers who are not the payer. -/
def signingKeys (payer : KeyPair) (signers : List KeyPair) : List KeyPair :=
  payer :: signers.filter (·.address ≠ payer.address)

/-- Signs instructions with a payer and further signers and sends them as one transaction
(`send_instructions`). The signature that the transaction goes by is handed back. -/
def send (instructions : List Instruction) (payer : KeyPair) (signers : List KeyPair) :
    Endpoint.Calling Signature := do
  let blockhash ← Endpoint.asks (·.blockhash)
  let message := Message.compile payer.address blockhash instructions
  if message.isCounted then
    match Transaction.sign (signingKeys payer signers) message with
    | .error failure => throw (failure.map .signing)
    | .ok transaction => Endpoint.send transaction
  else throw .abort

/-- A wait that starts at a time. Where no timeout is given, that of the settings counts. -/
def wait {α σ : Type} (c : Client) (now : Nat) (request : WaitRequest α σ)
    (timeout : Option UInt64) : Wait α σ where
  request
  deadline := (timeout.or c.monitor.waitTimeout).map fun ms => now + ms.toNat

/-- The past events of a scope. The program as a whole has no task to ask for. -/
def history (c : Client) (source : TransactionSource) (scope : Scope) (options : HistoryOptions) :
    History :=
  let options := match scope with
    | .session _ => options
    | .program => { options with task := none }
  History.replay source c.monitor c.program c.network scope options

end Client

end ComputeNet
