import ComputeNet.Error.Basic
import ComputeNet.Event.Kind
import ComputeNet.Event.Payload

/-!
# Events

An event is a payload of one of nine kinds. Its bytes are the discriminator of the kind and the
payload; bytes after the payload do not matter. Most events name the session and the task that
they belong to.
-/

namespace ComputeNet

/-- Something that the program reports in the logs of a transaction. -/
inductive Event where
  | taskClaimed (payload : TaskClaimed)
  | taskResultSubmitted (payload : TaskResultSubmitted)
  | taskValidationSubmitted (payload : TaskValidationSubmitted)
  | sessionSet (payload : SessionSet)
  | contributionMade (payload : ContributionMade)
  | sessionCompleted (payload : SessionCompleted)
  | nodeValidated (payload : NodeVerdict)
  | nodeRejected (payload : NodeVerdict)
  | agentCreated (payload : AgentCreated)
deriving DecidableEq

namespace Event

def kind : Event → EventKind
  | .taskClaimed _ => .taskClaimed
  | .taskResultSubmitted _ => .taskResultSubmitted
  | .taskValidationSubmitted _ => .taskValidationSubmitted
  | .sessionSet _ => .sessionSet
  | .contributionMade _ => .contributionMade
  | .sessionCompleted _ => .sessionCompleted
  | .nodeValidated _ => .nodeValidated
  | .nodeRejected _ => .nodeRejected
  | .agentCreated _ => .agentCreated

def sessionSlot? : Event → Option UInt64
  | .taskClaimed e => some e.sessionSlotId
  | .taskResultSubmitted e => some e.sessionSlotId
  | .taskValidationSubmitted e => some e.sessionSlotId
  | .sessionSet e => some e.sessionSlotId
  | .contributionMade e => some e.sessionSlotId
  | .sessionCompleted e => some e.sessionSlotId
  | .nodeValidated e => e.sessionSlotId
  | .nodeRejected e => e.sessionSlotId
  | .agentCreated _ => none

def taskSlot? : Event → Option UInt64
  | .taskClaimed e => some e.taskSlotId
  | .taskResultSubmitted e => some e.taskSlotId
  | .taskValidationSubmitted e => some e.taskSlotId
  | .sessionSet e => some e.taskSlotId
  | .contributionMade _ => none
  | .sessionCompleted _ => none
  | .nodeValidated e => e.taskSlotId
  | .nodeRejected e => e.taskSlotId
  | .agentCreated _ => none

def body : Event → Bytes
  | .taskClaimed e => Borsh.encode e
  | .taskResultSubmitted e => Borsh.encode e
  | .taskValidationSubmitted e => Borsh.encode e
  | .sessionSet e => Borsh.encode e
  | .contributionMade e => Borsh.encode e
  | .sessionCompleted e => Borsh.encode e
  | .nodeValidated e => Borsh.encode e
  | .nodeRejected e => Borsh.encode e
  | .agentCreated e => Borsh.encode e

/-- Every length in the payload fits its format. -/
def fits : Event → Bool
  | .taskClaimed e => Borsh.fits e
  | .taskResultSubmitted e => Borsh.fits e
  | .taskValidationSubmitted e => Borsh.fits e
  | .sessionSet e => Borsh.fits e
  | .contributionMade e => Borsh.fits e
  | .sessionCompleted e => Borsh.fits e
  | .nodeValidated e => Borsh.fits e
  | .nodeRejected e => Borsh.fits e
  | .agentCreated e => Borsh.fits e

def encode (e : Event) : Bytes := e.kind.discriminator.toList ++ e.body

/-- Reads a payload and makes an event of it. -/
def readAs {α : Type} [Borsh α] (make : α → Event) (bs : Bytes) : Except Borsh.Error Event :=
  (fun p => make p.1) <$> Borsh.decode bs

/-- Reads the payload of an event of a known kind. -/
def decodeBody : EventKind → Bytes → Except Borsh.Error Event
  | .taskClaimed => readAs .taskClaimed
  | .taskResultSubmitted => readAs .taskResultSubmitted
  | .taskValidationSubmitted => readAs .taskValidationSubmitted
  | .sessionSet => readAs .sessionSet
  | .contributionMade => readAs .contributionMade
  | .sessionCompleted => readAs .sessionCompleted
  | .nodeValidated => readAs .nodeValidated
  | .nodeRejected => readAs .nodeRejected
  | .agentCreated => readAs .agentCreated

/-- The event in a byte string (`decode_event`). -/
def decode (data : Bytes) : Except ClientError Event :=
  if h : 8 ≤ data.length then
    let discriminator := FixedBytes.take 8 data h
    match EventKind.ofDiscriminator? discriminator with
    | none => .error (.unknownEvent discriminator)
    | some kind =>
      match decodeBody kind (data.drop 8) with
      | .error cause => .error (.decode (Enumeration.name kind) cause)
      | .ok e => .ok e
  else .error (.eventTooShort data.length)

/-- An event passes the filter for a session unless it names another session
(`matches_session_filter`). -/
def passes (session : Option UInt64) (e : Event) : Bool :=
  match session, e.sessionSlot? with
  | some wanted, some slot => wanted = slot
  | _, _ => true

/-- An event concerns a task unless it names another task. -/
def concernsTask (task : Option UInt64) (e : Event) : Bool :=
  match task, e.taskSlot? with
  | some wanted, some slot => slot = wanted
  | _, _ => true

end Event

end ComputeNet
