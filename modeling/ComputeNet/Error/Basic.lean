import ComputeNet.Address.Basic
import ComputeNet.Borsh.Error
import ComputeNet.Discriminator
import ComputeNet.Error.Program
import ComputeNet.Settings.Error
import ComputeNet.Text.Base64

/-!
# Client errors

Everything that can go wrong in the work of a client, as causes. `ClientError.message` puts a
cause into words.
-/

namespace ComputeNet

/-- The calls that a client makes to an endpoint. -/
inductive Call where
  | getAccount
  | getProgramAccounts
  | getMultipleAccounts
  | latestBlockhash
  | sendTransaction
  | programSubscribe
  | logsSubscribe
deriving DecidableEq, Repr

instance : Enumeration Call where
  members := [.getAccount, .getProgramAccounts, .getMultipleAccounts, .latestBlockhash,
    .sendTransaction, .programSubscribe, .logsSubscribe]
  name
    | .getAccount => "get_account"
    | .getProgramAccounts => "get_program_accounts"
    | .getMultipleAccounts => "getMultipleAccounts"
    | .latestBlockhash => "latest_blockhash"
    | .sendTransaction => "send_transaction"
    | .programSubscribe => "program_subscribe"
    | .logsSubscribe => "logs_subscribe"

/-- What an endpoint reports instead of an answer. -/
inductive TransportError where
  /-- A call is not served. -/
  | unavailable (call : Call)
  /-- The program failed with a number that stands for none of its errors. -/
  | unknownCode (code : UInt32)
  /-- Words of the endpoint itself. -/
  | reported (text : String)
deriving DecidableEq, Repr

def hexText (n : Nat) : String := String.ofList (Nat.toDigits 16 n)

def TransportError.message : TransportError → String
  | .unavailable call => s!"{Enumeration.name call} unavailable"
  | .unknownCode code => s!"custom program error: 0x{hexText code.toNat}"
  | .reported text => text

/-- Why a transaction cannot be signed with the keys at hand. -/
inductive SigningError where
  /-- A key is given that the transaction does not ask for. -/
  | unexpectedKey
  /-- A key is missing that the transaction asks for. -/
  | missingKey
deriving DecidableEq, Repr

def SigningError.message : SigningError → String
  | .unexpectedKey => "keypair-pubkey mismatch"
  | .missingKey => "not enough signers"

/-- Why the client did not do what it was asked for. -/
inductive ClientError where
  /-- The client has no means to follow changes. -/
  | missingSubscriptionTransport
  | timeout (expected : Nat) (status : String)
  /-- The endpoint stopped reporting changes before the wait was over. -/
  | streamEnded (status : String)
  | cancelled
  | emptyTargets
  | accountTooShort (length : Nat)
  | invalidDiscriminator (account : String)
  | eventTooShort (length : Nat)
  | unknownEvent (discriminator : Discriminator)
  /-- A log line carries no base 64. -/
  | invalidPayload (cause : Base64.Error)
  | accountNotFound (account : String) (address : Address)
  /-- Bytes are no value of a type. -/
  | decode (what : String) (cause : Borsh.Error)
  /-- A value has a part too long for its format. -/
  | encode (what : String)
  | missingField (field : String)
  | transport (cause : TransportError)
  | signing (cause : SigningError)
  | config (cause : Settings.Error)
  | program (cause : ProgramError)
deriving DecidableEq

/-- Why a call has no result. -/
inductive Failure (ε : Type) where
  | error (cause : ε)
  /-- The program gave up on the way, without naming a cause: a value could not be written. -/
  | abort
deriving DecidableEq

def Failure.map {ε ε' : Type} (f : ε → ε') : Failure ε → Failure ε'
  | .error cause => .error (f cause)
  | .abort => .abort

namespace ClientError

/-- A list of numbers in brackets. -/
def bracketed (bs : Bytes) : String :=
  "[" ++ ", ".intercalate (bs.map fun b => toString b.toNat) ++ "]"

def message : ClientError → String
  | .missingSubscriptionTransport => "subscription transport is not configured"
  | .timeout expected status =>
      s!"timed out waiting for {expected} account(s) to reach status {status}"
  | .streamEnded status =>
      s!"subscription ended unexpectedly while waiting for status {status}"
  | .cancelled => "wait cancelled"
  | .emptyTargets => "at least one target key is required"
  | .accountTooShort length => s!"account data too short: {length} bytes"
  | .invalidDiscriminator account => s!"invalid discriminator for {account}"
  | .eventTooShort length => s!"event payload too short: {length} bytes"
  | .unknownEvent discriminator =>
      "unknown event discriminator " ++ bracketed discriminator.toList
  | .invalidPayload cause => s!"invalid base64 payload: {cause.message}"
  | .accountNotFound account address => s!"account not found: {account} {address.toText}"
  | .decode what cause => s!"failed to decode {what}: {cause.message}"
  | .encode what => s!"failed to encode {what}: a length does not fit in 32 bits"
  | .missingField field => s!"missing required field `{field}`"
  | .transport cause => s!"transport error: {cause.message}"
  | .signing cause => s!"signing failed: {cause.message}"
  | .config cause => s!"config error: {cause.message}"
  | .program cause => s!"program error: {cause.message}"

/-- The error behind a number that a failed transaction reports. -/
def ofCode (code : UInt32) : ClientError :=
  match ProgramError.ofCode? code with
  | some cause => .program cause
  | none => .transport (.unknownCode code)

end ClientError

end ComputeNet
