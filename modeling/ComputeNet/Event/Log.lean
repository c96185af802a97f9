import ComputeNet.Event.Basic
import ComputeNet.Text.Blank

/-!
# Events in transaction logs

The runtime writes the events of a transaction into its logs, one line each: a marker, then the
bytes in base 64. `Log.events` reads the events of a whole log in order; lines that hold none,
and lines that cannot be read, are passed over.
-/

namespace ComputeNet

/-- An event and the transaction that it was found in. -/
structure LoggedEvent where
  event : Event
  signature : Signature
deriving DecidableEq

namespace Log

/-- What a line with an event begins with. -/
def marker : String := "Program data: "

def line (e : Event) : String := marker ++ Base64.encodeText e.encode

/-- The text after the marker, if the line begins with it. -/
def payload? (line : String) : Option (List Char) :=
  if marker.toList.isPrefixOf line.toList then some (line.toList.drop marker.length) else none

/-- The event in a line, if it is there for events (`decode_log_line`). Blanks around the base 64 do
not matter. -/
def read (line : String) : Except ClientError (Option Event) :=
  match payload? line with
  | none => .ok none
  | some payload =>
    match Base64.decode (Utf8.encode (String.ofList (Text.trim payload))) with
    | .error cause => .error (.invalidPayload cause)
    | .ok data => some <$> Event.decode data

def event? (line : String) : Option Event := (read line).toOption.join

/-- The events in the logs of a transaction that pass the filter for a session, in order
(`parse_event_logs`). -/
def events (session : Option UInt64) (signature : Signature) (lines : List String) :
    List LoggedEvent :=
  ((lines.filterMap event?).filter (Event.passes session)).map fun event => { event, signature }

end Log

/-- What an endpoint tells the followers of a log about one transaction. -/
structure LogNotification where
  signature : Option Signature
  logs : Option (List String)
  /-- The failure of the transaction. -/
  failure : Option String

/-- The events of a notification that belong to a scope, in order (`scoped_events`). A failed
transaction, and one that comes without signature or logs, yields none. -/
def LogNotification.events (scope : Scope) (n : LogNotification) : List LoggedEvent :=
  match n.failure, n.signature, n.logs with
  | none, some signature, some logs =>
      (Log.events scope.sessionFilter signature logs).filter fun e => scope.accepts e.event.kind
  | _, _, _ => []

end ComputeNet
