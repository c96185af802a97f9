import ComputeNet.Settings.Basic
import ComputeNet.Yaml.Document

/-!
# Settings files

Reads settings from a YAML document. The root and the section `monitor` are mappings of fields.
Fields that are not known are passed over, whatever their values; a known field may be given once.
-/

namespace ComputeNet.Settings

open Yaml (Node Document)

/-- The value of a digit in bases up to 16. -/
def digit? (base : Nat) (c : Char) : Option Nat :=
  (Yaml.Scalar.hexDigit? c).filter (· < base)

/-- The number of a sequence of digits that fits 64 bits. -/
def ofDigits? (base : Nat) (cs : List Char) : Option UInt64 := do
  if cs.isEmpty then none
  let values ← cs.mapM (digit? base)
  let n := values.foldl (fun v d => v * base + d) 0
  if n < UInt64.size then some (UInt64.ofNat n) else none

/-- The number that a text stands for. It may begin with `+`; after `0x`, `0o` or `0b` it is in
base 16, 8 or 2, and otherwise in base 10 and without a zero in front. -/
def number? (s : String) : Option UInt64 :=
  let cs := match s.toList with
    | '+' :: cs => cs
    | cs => cs
  match cs with
  | '0' :: 'x' :: digits => ofDigits? 16 digits
  | '0' :: 'o' :: digits => ofDigits? 8 digits
  | '0' :: 'b' :: digits => ofDigits? 2 digits
  | '0' :: _ :: _ => none
  | _ => ofDigits? 10 cs

/-- The texts that stand for no value. -/
def nullTexts : List String := ["", "~", "null", "Null", "NULL"]

/-- The tag of the node that stands for no value. -/
def nullTag : String := Yaml.Scanner.standardTags ++ "null"

/-- The text of a scalar, whatever its notation and its tag. -/
def text (field : String) : Node → Except Error String
  | .scalar text _ _ => .ok text
  | _ => .error (.badValue field)

/-- The number of a plain scalar, whatever its tag. -/
def number (field : String) : Node → Except Error UInt64
  | .scalar text true _ =>
    match number? text with
    | some n => .ok n
    | none => .error (.badValue field)
  | _ => .error (.badValue field)

/-- A value that may be missing. A plain scalar without a tag is missing if its text says so. With
the tag for that it must say so in words, and with another one it is there. -/
def optional {α : Type} (read : String → Node → Except Error α) (field : String) (n : Node) :
    Except Error (Option α) :=
  match n with
  | .scalar text true none => if text ∈ nullTexts then .ok none else some <$> read field n
  | .scalar text true (some tag) =>
    if tag ≠ nullTag then some <$> read field n
    else if text ≠ "" ∧ text ∈ nullTexts then .ok none
    else .error (.badValue field)
  | _ => some <$> read field n

/-- The keys and values of a mapping, with aliases looked up. An empty place counts as a mapping
without fields. -/
def fields (d : Document) : Node → Except Error (List (String × Node))
  | .mapping entries => entries.mapM fun (key, value) =>
    match d.resolve key with
    | .scalar text _ _ => .ok (text, d.resolve value)
    | _ => .error .badKey
  | .scalar "" true _ => .ok []
  | _ => .error .notMapping

/-- Reads the value of a field that is given at most once; one that is not given has a default. -/
def field {α : Type} (fields : List (String × Node)) (name : String) (otherwise : Except Error α)
    (read : String → Node → Except Error α) : Except Error α :=
  match fields.filter (·.1 = name) with
  | [] => otherwise
  | [(_, value)] => read name value
  | _ => .error (.duplicateField name)

/-- Reads the section on events and accounts. -/
def monitorOf (d : Document) (n : Node) : Except Error MonitorSettings := do
  let given ← fields d n
  let usual : MonitorSettings := {}
  return {
    maxSignatures := ← field given "max_signatures" (.ok usual.maxSignatures) number
    fetchBatchSize := ← field given "fetch_batch_size" (.ok usual.fetchBatchSize) number
    sessionHistoryLimit :=
      ← field given "session_history_limit" (.ok usual.sessionHistoryLimit) number
    programHistoryLimit :=
      ← field given "program_history_limit" (.ok usual.programHistoryLimit) number
    waitTimeout := ← field given "wait_timeout_ms" (.ok usual.waitTimeout) (optional number) }

def ofDocument (d : Document) : Except Error Settings := do
  let given ← fields d d.root
  let required (name : String) : Except Error String :=
    field given name (.error (.missingField name)) text
  let optionalText (name : String) : Except Error (Option String) :=
    field given name (.ok none) (optional text)
  return {
    rpcUrl := ← required "rpc_url"
    wsUrl := ← optionalText "ws_url"
    programId := ← optionalText "program_id"
    networkAuthority := ← required "network_authority"
    keypairPath := ← optionalText "keypair_path"
    monitor := ← field given "monitor" (.ok {}) fun _ => monitorOf d }

def ofText (s : String) : Except ClientError Settings :=
  match Document.ofText s with
  | .error cause => .error (.config (.notYaml cause))
  | .ok d => (ofDocument d).mapError .config

end ComputeNet.Settings
