import ComputeNet.Account.Agent
import ComputeNet.Account.NetworkConfig
import ComputeNet.Account.NodeInfo
import ComputeNet.Account.Session
import ComputeNet.Account.Task
import ComputeNet.Proofs.Borsh.Lawful

/-!
# Account data and records

The formats of all records that are kept in accounts are lawful, and no two types of records share
a discriminator. So account data stands for one record of one type: the record whose data it begins
with (`AccountType.ofData_corresponds`).
-/

namespace ComputeNet

open Borsh (Lawful fits)

namespace Account

variable {α : Type} [Account α]

/-- Account data that can be read is the discriminator and what the record is read from. -/
theorem exists_of_ofData {data : Bytes} {a : α} (h : ofData data = .ok a) :
    ∃ body rest, data = (discriminator α).toList ++ body ∧ Borsh.decode body = .ok (a, rest) := by
  rw [ofData] at h
  split at h
  · cases h
  · split at h
    · cases h
    next hfront =>
      split at h
      · cases h
      next b rest hbody =>
        cases h
        have hsplit := List.take_append_drop 8 data
        rw [Decidable.not_not.mp hfront] at hsplit
        exact ⟨data.drop 8, rest, hsplit.symm, hbody⟩

/-- Data that begins with a discriminator is long enough for one. -/
theorem not_length_append_lt (d : Discriminator) (body : Bytes) :
    ¬(d.toList ++ body).length < 8 := Nat.not_lt.mpr (d.le_length_append body)

/-- What stands after the discriminator decides which record is read. -/
private theorem ofData_append_eq_ok {body rest : Bytes} {a : α}
    (h : Borsh.decode body = .ok (a, rest)) :
    ofData ((discriminator α).toList ++ body) = .ok a := by
  have hlength : (discriminator α).toList.length = 8 := (discriminator α).length_toList
  rw [ofData, if_neg (not_length_append_lt _ _), List.take_left' hlength, List.drop_left' hlength,
    if_neg (not_not_intro rfl), h]

/-- Data of another type is told by its discriminator. -/
private theorem ofData_append_of_ne {other : Discriminator} (h : other ≠ discriminator α)
    (body : Bytes) :
    (ofData (other.toList ++ body) : Except ClientError α) =
      .error (.invalidDiscriminator (name α)) := by
  have hne : other.toList ≠ (discriminator α).toList := fun heq =>
    h (FixedBytes.toList_injective heq)
  rw [ofData, if_neg (not_length_append_lt _ _), List.take_left' other.length_toList, if_pos hne]

/-- A record is read from the data that begins with its own. -/
theorem ofData_eq_ok_iff [Lawful α] {data : Bytes} {a : α} :
    ofData data = .ok a ↔ fits a = true ∧ toData a <+: data := by
  constructor
  · intro h
    obtain ⟨body, rest, rfl, hbody⟩ := exists_of_ofData h
    obtain ⟨hfits, rfl⟩ := Borsh.decode_eq_ok_iff.mp hbody
    exact ⟨hfits, rest, List.append_assoc ..⟩
  · rintro ⟨hfits, rest, rfl⟩
    rw [toData, List.append_assoc]
    exact ofData_append_eq_ok (Borsh.decode_eq_ok_iff.mpr ⟨hfits, rfl⟩)

end Account

/-! ## The formats of the records -/

instance : Enumeration.Complete NodeType where
  nodup := by decide
  mem_members a := by cases a <;> decide
  length_le := by decide

instance : Enumeration.Complete NodeStatus where
  nodup := by decide
  mem_members a := by cases a <;> decide
  length_le := by decide

instance : Enumeration.Complete AgentStatus where
  nodup := by decide
  mem_members a := by cases a <;> decide
  length_le := by decide

instance : Enumeration.Complete SessionStatus where
  nodup := by decide
  mem_members a := by cases a <;> decide
  length_le := by decide

instance : Enumeration.Complete TaskStatus where
  nodup := by decide
  mem_members a := by cases a <;> decide
  length_le := by decide

instance : Enumeration.Complete ValidationStatus where
  nodup := by decide
  mem_members a := by cases a <;> decide
  length_le := by decide

instance : Lawful NodeType := .ofTags

instance : Lawful NodeStatus := .ofTags

instance : Lawful AgentStatus := .ofTags

instance : Lawful SessionStatus := .ofTags

instance : Lawful TaskStatus := .ofTags

instance : Lawful ValidationStatus := .ofTags

instance : Lawful SemanticVersion :=
  .ofFields SemanticVersion.fields (fun (major, minor, patch) => ⟨major, minor, patch⟩)
    (fun _ => rfl) (fun _ => rfl)

instance : Lawful CodeMeasurement :=
  .ofFields CodeMeasurement.fields (fun (measurement, version) => ⟨measurement, version⟩)
    (fun _ => rfl) (fun _ => rfl)

instance : Lawful Validator :=
  .ofFields Validator.fields (fun (pubkey, status) => ⟨pubkey, status⟩)
    (fun _ => rfl) (fun _ => rfl)

instance : Lawful NetworkConfig := .ofFields _ _ (fun _ => rfl) (fun _ => rfl)

instance : Lawful NodeInfo := .ofFields _ _ (fun _ => rfl) (fun _ => rfl)

instance : Lawful Agent := .ofFields _ _ (fun _ => rfl) (fun _ => rfl)

instance : Lawful Session := .ofFields _ _ (fun _ => rfl) (fun _ => rfl)

instance : Lawful Contribution := .ofFields _ _ (fun _ => rfl) (fun _ => rfl)

instance : Lawful TaskType := .of_plain (fun _ => rfl) <| by
  intro bs type rest
  refine Except.bind_eq_ok_iff.trans ?_
  constructor
  · rintro ⟨⟨tag, rest'⟩, htag, h⟩
    rw [Borsh.takeByte_eq_ok_iff] at htag
    dsimp only at h htag
    split at h
    next hcompletion =>
      obtain ⟨⟨model, rest''⟩, hmodel, h⟩ := Except.bind_eq_ok_iff.mp h
      cases h
      rw [htag, hcompletion, (Borsh.decode_eq_ok_iff.mp hmodel).2]
      rfl
    split at h
    next hcustom =>
      obtain ⟨⟨number, rest''⟩, hnumber, h⟩ := Except.bind_eq_ok_iff.mp h
      cases h
      rw [htag, hcustom, (Borsh.decode_eq_ok_iff.mp hnumber).2]
      rfl
    split at h
    next hhuman =>
      cases h
      rw [htag, hhuman]
      rfl
    next => cases h
  · rintro rfl
    cases type with
    | completion model =>
      refine ⟨_, rfl, Except.bind_eq_ok_iff.mpr ⟨(model, rest), ?_, rfl⟩⟩
      exact Borsh.decode_eq_ok_iff.mpr ⟨rfl, rfl⟩
    | custom number =>
      refine ⟨_, rfl, Except.bind_eq_ok_iff.mpr ⟨(number, rest), ?_, rfl⟩⟩
      exact Borsh.decode_eq_ok_iff.mpr ⟨rfl, rfl⟩
    | humanInLoop => exact ⟨_, rfl, rfl⟩

instance : Lawful Task := .ofFields _ _ (fun _ => rfl) (fun _ => rfl)

/-! ## The types of records -/

/-- The types of records that are kept in accounts. -/
inductive AccountType where
  | networkConfig
  | nodeInfo
  | agent
  | session
  | task
  | contribution
deriving DecidableEq

namespace AccountType

def Record : AccountType → Type
  | .networkConfig => NetworkConfig
  | .nodeInfo => NodeInfo
  | .agent => Agent
  | .session => Session
  | .task => Task
  | .contribution => Contribution

instance : (type : AccountType) → Account type.Record
  | .networkConfig => inferInstanceAs (Account NetworkConfig)
  | .nodeInfo => inferInstanceAs (Account NodeInfo)
  | .agent => inferInstanceAs (Account Agent)
  | .session => inferInstanceAs (Account Session)
  | .task => inferInstanceAs (Account Task)
  | .contribution => inferInstanceAs (Account Contribution)

instance : (type : AccountType) → Lawful type.Record
  | .networkConfig => inferInstanceAs (Lawful NetworkConfig)
  | .nodeInfo => inferInstanceAs (Lawful NodeInfo)
  | .agent => inferInstanceAs (Lawful Agent)
  | .session => inferInstanceAs (Lawful Session)
  | .task => inferInstanceAs (Lawful Task)
  | .contribution => inferInstanceAs (Lawful Contribution)

/-- What data of the type begins with. -/
def discriminator (type : AccountType) : Discriminator := Account.discriminator type.Record

def all : List AccountType := [networkConfig, nodeInfo, agent, session, task, contribution]

theorem mem_all (type : AccountType) : type ∈ all := by cases type <;> decide

theorem nodup_map_discriminator : (all.map discriminator).Nodup := by decide +kernel

theorem discriminator_injective {type other : AccountType}
    (h : type.discriminator = other.discriminator) : type = other :=
  List.inj_on_of_nodup_map nodup_map_discriminator (mem_all type) (mem_all other) h

/-- Account data and the records of a type correspond one to one. Data is read as a record exactly
if it begins with the data of that record and the lengths in it fit their format. So no data of a
record begins with that of another of the type, and what is read as one type is refused by every
other for its discriminator. -/
theorem ofData_corresponds (type : AccountType) :
    (∀ (data : Bytes) (a : type.Record),
      Account.ofData data = .ok a ↔ fits a = true ∧ Account.toData a <+: data) ∧
    (∀ a b : type.Record, fits a = true → fits b = true →
      Account.toData a <+: Account.toData b → a = b) ∧
    ∀ (data : Bytes) (a : type.Record), Account.ofData data = .ok a → ∀ other ≠ type,
      (Account.ofData data : Except ClientError other.Record) =
        .error (.invalidDiscriminator (Account.name other.Record)) := by
  refine ⟨fun data a => Account.ofData_eq_ok_iff, ?_, ?_⟩
  · intro a b ha hb hprefix
    have hfirst : Account.ofData (Account.toData b) = .ok a :=
      Account.ofData_eq_ok_iff.mpr ⟨ha, hprefix⟩
    rw [Account.ofData_eq_ok_iff.mpr ⟨hb, List.prefix_rfl⟩] at hfirst
    exact (Except.ok.inj hfirst).symm
  · intro data a h other hother
    obtain ⟨body, rest, rfl, -⟩ := Account.exists_of_ofData h
    exact Account.ofData_append_of_ne (fun heq => hother (discriminator_injective heq).symm) body

/-- A task that a validator has looked at. -/
def validatedTask : Task where
  taskSlotId := 4
  sessionSlotId := some 1
  status := .awaitingValidation
  computeNode := some (.replicate 32 7)
  taskType := .completion 2
  chainProof := .replicate 32 0
  taskIndex := 3
  maxTaskCost := 100
  maxCallCount := 5
  callCount := 1
  inputCid := some "in"
  outputCid := none
  pendingInputCid := none
  pendingOutputCid := some "é"
  validations := [⟨.replicate 32 9, .approved⟩]
  bump := 255

theorem ofData_corresponds_validatedTask :
    Account.ofData (Account.toData validatedTask ++ [0, 0]) = .ok validatedTask ∧
      (Account.ofData (Account.toData validatedTask ++ [0, 0]) : Except ClientError Session) =
        .error (.invalidDiscriminator "Session") := by
  obtain ⟨hread, -, hother⟩ := ofData_corresponds .task
  have hfits : fits validatedTask = true := by decide
  have hdata := (hread (Account.toData validatedTask ++ [0, 0]) validatedTask).mpr
    ⟨hfits, List.prefix_append _ _⟩
  exact ⟨hdata, hother _ _ hdata .session (by decide)⟩

end AccountType

end ComputeNet
