import ComputeNet.Error.Basic

/-!
# Settings

What a client is told about its surroundings: the endpoint to talk to, the program and the network
to work with, the file with its keys, and how it follows events and accounts. Two environment
variables take precedence over the settings.
-/

namespace ComputeNet

/-- How a client follows events and accounts. -/
structure MonitorSettings where
  /-- How many signatures a history looks at, whatever its limit. -/
  maxSignatures : UInt64 := 100
  /-- How many transactions a history fetches at a time. -/
  fetchBatchSize : UInt64 := 10
  /-- The limit of a session's history, where none is given. -/
  sessionHistoryLimit : UInt64 := 50
  /-- The limit of the program's history, where none is given. -/
  programHistoryLimit : UInt64 := 20
  /-- The deadline of a wait, in milliseconds, where none is given. -/
  waitTimeout : Option UInt64 := none
deriving DecidableEq, Repr

structure Settings where
  rpcUrl : String
  wsUrl : Option String := none
  programId : Option String := none
  networkAuthority : String
  keypairPath : Option String := none
  monitor : MonitorSettings := {}
deriving DecidableEq, Repr

namespace Settings

def rpcUrlVariable : String := "DAC_RPC_URL"

def wsUrlVariable : String := "DAC_WS_URL"

/-- The settings under an environment (`apply_overrides`). -/
def withEnvironment (environment : String → Option String) (s : Settings) : Settings :=
  { s with
    rpcUrl := (environment rpcUrlVariable).getD s.rpcUrl
    wsUrl := (environment wsUrlVariable).or s.wsUrl }

/-- The text with the first occurrence of a part replaced by another. -/
def replaceFirst (part other : List Char) : List Char → List Char
  | [] => if part.isEmpty then other else []
  | c :: cs =>
    if part.isPrefixOf (c :: cs) then other ++ (c :: cs).drop part.length
    else c :: replaceFirst part other cs

/-- The endpoint for subscriptions of an endpoint: the same, under the scheme for web sockets. -/
def webSocketUrlOf (rpcUrl : String) : String :=
  String.ofList (replaceFirst "http://".toList "ws://".toList
    (replaceFirst "https://".toList "wss://".toList rpcUrl.toList))

/-- The endpoint for subscriptions: the one that is given, or that of the endpoint (`ws_url`). -/
def webSocketUrl (s : Settings) : String := s.wsUrl.getD (webSocketUrlOf s.rpcUrl)

/-- The address in a field. -/
def addressIn (field text : String) : Except ClientError Address :=
  match Address.ofText text with
  | .ok address => .ok address
  | .error cause => .error (.config (.badAddress field cause))

/-- The program: the one that is given, or the well-known one. -/
def program (s : Settings) : Except ClientError Address :=
  match s.programId with
  | some text => addressIn "program_id" text
  | none => .ok Address.program

/-- The authority that runs the network. -/
def authority (s : Settings) : Except ClientError Address :=
  addressIn "network_authority" s.networkAuthority

end Settings

end ComputeNet
