import Mathlib.Data.List.Nodup
import ComputeNet.Instruction.Draft
import ComputeNet.Proofs.Account.Correspondence
import ComputeNet.Proofs.Address.Distinct

/-!
# What instruction data tells

No two kinds of instructions begin with the same bytes, and the arguments of each kind have a lawful
format. So the kind and the arguments of an instruction are read off its data, and data is read as
arguments exactly if it is their data (`Arguments.ofData?_eq_some_iff`). Whatever is built from a
draft tells by its data what the draft asks for (`Draft.data_tells`).
-/

namespace ComputeNet

open Borsh (Lawful fits)

namespace InstructionKind

theorem mem_members (kind : InstructionKind) :
    kind ∈ (Enumeration.members : List InstructionKind) := by
  cases kind <;> decide

/-- The data of an instruction begins with the front of the hash of its name. -/
private theorem discriminator_eq_ofName (kind : InstructionKind) :
    kind.discriminator = .ofName "global" (Enumeration.name kind) := by
  cases kind <;> decide +kernel

theorem nodup_map_discriminator :
    ((Enumeration.members : List InstructionKind).map discriminator).Nodup := by
  decide

theorem discriminator_injective {kind other : InstructionKind}
    (h : kind.discriminator = other.discriminator) : kind = other :=
  List.inj_on_of_nodup_map nodup_map_discriminator (mem_members kind) (mem_members other) h

/-- The kind of the instructions whose data begins with these bytes. -/
def ofFront? (front : Bytes) : Option InstructionKind :=
  (Enumeration.members : List InstructionKind).find? fun kind => kind.discriminator.toList = front

theorem ofFront?_eq_some_iff {front : Bytes} {kind : InstructionKind} :
    ofFront? front = some kind ↔ kind.discriminator.toList = front := by
  constructor
  · intro h
    simpa using List.find?_some h
  · rintro rfl
    cases hfind : ofFront? kind.discriminator.toList with
    | none => simpa using List.find?_eq_none.mp hfind kind (mem_members kind)
    | some other =>
      have hother : other.discriminator.toList = kind.discriminator.toList := by
        simpa using List.find?_some hfind
      rw [discriminator_injective (FixedBytes.toList_injective hother)]

/-- The arguments of an instruction of the kind, in order. -/
abbrev Fields : InstructionKind → Type
  | .initializeNetwork => String × UInt64 × List CodeMeasurement × UInt32
  | .updateNetworkConfig => Option String × Option CodeMeasurement
  | .registerNode => Address × NodeType
  | .claimComputeNode => String
  | .claimConfidentialNode => Digest × Address
  | .validatePublicNode => Bool
  | .activateNode => Unit
  | .createAgent => String
  | .validateAgent => Unit
  | .createSession => Bool × Bool
  | .setSession => String × UInt64 × UInt64 × Address × TaskType
  | .contributeToSession => UInt64
  | .withdrawFromSession => UInt64
  | .submitTask => String
  | .claimTask => UInt64
  | .submitTaskResult => String × String
  | .submitTaskValidation => Unit

instance : (kind : InstructionKind) → Borsh kind.Fields
  | .initializeNetwork | .updateNetworkConfig | .registerNode | .claimComputeNode
  | .claimConfidentialNode | .validatePublicNode | .activateNode | .createAgent | .validateAgent
  | .createSession | .setSession | .contributeToSession | .withdrawFromSession | .submitTask
  | .claimTask | .submitTaskResult | .submitTaskValidation => inferInstance

instance (kind : InstructionKind) : Lawful kind.Fields := by
  cases kind <;> infer_instance

end InstructionKind

namespace Arguments

def fields : (args : Arguments) → args.kind.Fields
  | .initializeNetwork cidConfig allocateTasks approvedCodeMeasurements requiredValidations =>
      (cidConfig, allocateTasks, approvedCodeMeasurements, requiredValidations)
  | .updateNetworkConfig cidConfig newCodeMeasurement => (cidConfig, newCodeMeasurement)
  | .registerNode nodePubkey nodeType => (nodePubkey, nodeType)
  | .claimComputeNode nodeInfoCid => nodeInfoCid
  | .claimConfidentialNode codeMeasurement teeSigningPubkey => (codeMeasurement, teeSigningPubkey)
  | .validatePublicNode approved => approved
  | .activateNode => ()
  | .createAgent agentConfigCid => agentConfigCid
  | .validateAgent => ()
  | .createSession isOwned isConfidential => (isOwned, isConfidential)
  | .setSession specificationCid maxIterations initialDeposit computeNode taskType =>
      (specificationCid, maxIterations, initialDeposit, computeNode, taskType)
  | .contributeToSession depositAmount => depositAmount
  | .withdrawFromSession sharesToBurn => sharesToBurn
  | .submitTask inputCid => inputCid
  | .claimTask maxTaskCost => maxTaskCost
  | .submitTaskResult inputCid outputCid => (inputCid, outputCid)
  | .submitTaskValidation => ()

def ofFields : (kind : InstructionKind) → kind.Fields → Arguments
  | .initializeNetwork, (cidConfig, allocateTasks, approvedCodeMeasurements, requiredValidations) =>
      .initializeNetwork cidConfig allocateTasks approvedCodeMeasurements requiredValidations
  | .updateNetworkConfig, (cidConfig, newCodeMeasurement) =>
      .updateNetworkConfig cidConfig newCodeMeasurement
  | .registerNode, (nodePubkey, nodeType) => .registerNode nodePubkey nodeType
  | .claimComputeNode, nodeInfoCid => .claimComputeNode nodeInfoCid
  | .claimConfidentialNode, (codeMeasurement, teeSigningPubkey) =>
      .claimConfidentialNode codeMeasurement teeSigningPubkey
  | .validatePublicNode, approved => .validatePublicNode approved
  | .activateNode, () => .activateNode
  | .createAgent, agentConfigCid => .createAgent agentConfigCid
  | .validateAgent, () => .validateAgent
  | .createSession, (isOwned, isConfidential) => .createSession isOwned isConfidential
  | .setSession, (specificationCid, maxIterations, initialDeposit, computeNode, taskType) =>
      .setSession specificationCid maxIterations initialDeposit computeNode taskType
  | .contributeToSession, depositAmount => .contributeToSession depositAmount
  | .withdrawFromSession, sharesToBurn => .withdrawFromSession sharesToBurn
  | .submitTask, inputCid => .submitTask inputCid
  | .claimTask, maxTaskCost => .claimTask maxTaskCost
  | .submitTaskResult, (inputCid, outputCid) => .submitTaskResult inputCid outputCid
  | .submitTaskValidation, () => .submitTaskValidation

theorem ofFields_fields (args : Arguments) : ofFields args.kind args.fields = args := by
  cases args <;> rfl

theorem data?_ofFields (kind : InstructionKind) (fields : kind.Fields) :
    (ofFields kind fields).data? =
      (Borsh.encode? fields).map fun body => kind.discriminator.toList ++ body := by
  cases kind <;> rfl

/-- The arguments whose data this is. -/
def ofData? (data : Bytes) : Option Arguments :=
  match InstructionKind.ofFront? (data.take 8) with
  | none => none
  | some kind =>
    match (Borsh.decode (data.drop 8) : Except Borsh.Error (kind.Fields × Bytes)) with
    | .ok (fields, []) => some (ofFields kind fields)
    | _ => none

/-- The data of arguments that fit their format. -/
theorem data?_eq_some_iff {args : Arguments} {data : Bytes} :
    args.data? = some data ↔ fits args.fields = true ∧
      args.kind.discriminator.toList ++ Borsh.encode args.fields = data := by
  have hdata := data?_ofFields args.kind args.fields
  rw [ofFields_fields] at hdata
  rw [hdata, Borsh.encode?]
  by_cases hfits : fits args.fields = true
  · rw [if_pos hfits, Option.map_some, Option.some.injEq, and_iff_right hfits]
  · rw [if_neg hfits]
    exact iff_of_false (fun h => nomatch h) fun h => hfits h.1

/-- Data is read as arguments exactly if it is their data. -/
theorem ofData?_eq_some_iff {args : Arguments} {data : Bytes} :
    ofData? data = some args ↔ args.data? = some data := by
  constructor
  · intro h
    rw [ofData?] at h
    split at h
    · cases h
    next kind hfront =>
      split at h
      next fields hdecode =>
        cases h
        obtain ⟨hfits, hbody⟩ := Borsh.decode_eq_ok_iff.mp hdecode
        rw [List.append_nil] at hbody
        rw [data?_ofFields, Borsh.encode?, if_pos hfits, Option.map_some, ← hbody,
          InstructionKind.ofFront?_eq_some_iff.mp hfront, List.take_append_drop]
      · cases h
  · intro h
    obtain ⟨hfits, rfl⟩ := data?_eq_some_iff.mp h
    have hlength : args.kind.discriminator.toList.length = 8 :=
      args.kind.discriminator.length_toList
    have hfront : InstructionKind.ofFront?
        ((args.kind.discriminator.toList ++ Borsh.encode args.fields).take 8) = some args.kind :=
      InstructionKind.ofFront?_eq_some_iff.mpr (List.take_left' hlength).symm
    have hdecode : Borsh.decode
        ((args.kind.discriminator.toList ++ Borsh.encode args.fields).drop 8) =
          .ok (args.fields, []) := by
      rw [List.drop_left' hlength, Borsh.decode_eq_ok_iff]
      exact ⟨hfits, (List.append_nil _).symm⟩
    rw [ofData?, hfront]
    dsimp only
    rw [hdecode]
    exact congrArg some args.ofFields_fields

theorem instruction_eq_ok_iff {args : Arguments} {program : Address} {accounts : List AccountRef}
    {i : Instruction} : args.instruction program accounts = .ok i ↔
      i.program = program ∧ i.accounts = accounts ∧ args.data? = some i.data := by
  obtain ⟨program', accounts', data⟩ := i
  rw [instruction]
  cases args.data? with
  | none => simp
  | some data' => simp [eq_comm]

end Arguments

namespace Draft

private theorem required_eq_ok_iff {α : Type} {field : String} {a? : Option α} {a : α} :
    required field a? = .ok a ↔ a? = some a := by
  cases a? <;> simp [required]

def kind : Draft → InstructionKind
  | .initializeNetwork _ => .initializeNetwork
  | .updateNetworkConfig _ => .updateNetworkConfig
  | .registerNode _ => .registerNode
  | .claimComputeNode _ => .claimComputeNode
  | .claimConfidentialNode _ => .claimConfidentialNode
  | .validatePublicNode _ => .validatePublicNode
  | .activateNode _ => .activateNode
  | .createAgent _ => .createAgent
  | .validateAgent _ => .validateAgent
  | .createSession _ => .createSession
  | .setSession _ => .setSession
  | .contributeToSession _ => .contributeToSession
  | .withdrawFromSession _ => .withdrawFromSession
  | .submitTask _ => .submitTask
  | .claimTask _ => .claimTask
  | .submitTaskResult _ => .submitTaskResult
  | .submitTaskValidation _ => .submitTaskValidation

/-- The arguments that have been filled in, if none is missing. -/
def arguments? : Draft → Option Arguments
  | .initializeNetwork d => do
      return .initializeNetwork (← d.cidConfig) d.allocateTasks d.approvedCodeMeasurements
        d.requiredValidations
  | .updateNetworkConfig d => some (.updateNetworkConfig d.cidConfig d.newCodeMeasurement)
  | .registerNode d => return .registerNode (← d.nodePubkey) (← d.nodeType)
  | .claimComputeNode d => return .claimComputeNode (← d.nodeInfoCid)
  | .claimConfidentialNode d =>
      return .claimConfidentialNode (← d.codeMeasurement) (← d.teeSigningPubkey)
  | .validatePublicNode d => some (.validatePublicNode d.approved)
  | .activateNode _ => some .activateNode
  | .createAgent d => return .createAgent (← d.agentConfigCid)
  | .validateAgent _ => some .validateAgent
  | .createSession d => some (.createSession d.isOwned d.isConfidential)
  | .setSession d => do
      return .setSession (← d.specificationCid) d.maxIterations (← d.initialDeposit)
        (← d.computeNode) (← d.taskType)
  | .contributeToSession d => return .contributeToSession (← d.depositAmount)
  | .withdrawFromSession d => return .withdrawFromSession (← d.sharesToBurn)
  | .submitTask d => return .submitTask (← d.inputCid)
  | .claimTask d => return .claimTask (← d.maxTaskCost)
  | .submitTaskResult d => return .submitTaskResult (← d.inputCid) (← d.outputCid)
  | .submitTaskValidation _ => some .submitTaskValidation

/-- Whatever instruction comes of these steps has just these arguments. -/
def Asks (program : Address) (kind : InstructionKind) (args? : Option Arguments)
    (steps : Except ClientError Instruction) : Prop :=
  ∀ i, steps = .ok i → ∃ args accounts, args? = some args ∧ args.kind = kind ∧
    args.instruction program accounts = .ok i

namespace Asks

variable {α : Type} {program : Address} {kind : InstructionKind} {args? : Option Arguments}
  {field : String} {a? : Option α} {steps : α → Except ClientError Instruction}

theorem built {args : Arguments} {accounts : List AccountRef} :
    Asks program args.kind (some args) (args.instruction program accounts) :=
  fun _ h => ⟨args, accounts, rfl, rfl, h⟩

/-- A field that only the accounts need. -/
theorem skip (h : ∀ a, Asks program kind args? (steps a)) :
    Asks program kind args? (required field a? >>= steps) := by
  intro i hbuilt
  cases a? with
  | none => cases hbuilt
  | some a => exact h a i hbuilt

/-- A field that is an argument. -/
theorem ask {args? : α → Option Arguments} (h : ∀ a, Asks program kind (args? a) (steps a)) :
    Asks program kind (a? >>= args?) (required field a? >>= steps) := by
  intro i hbuilt
  cases a? with
  | none => cases hbuilt
  | some a => exact h a i hbuilt

end Asks

theorem asks_instruction (program : Address) (d : Draft) :
    Asks program d.kind d.arguments? (d.instruction program) := by
  cases d with
  | initializeNetwork d => exact .skip fun _ => .ask fun _ => .built
  | updateNetworkConfig d => exact .skip fun _ => .built
  | registerNode d => exact .skip fun _ => .skip fun _ => .ask fun _ => .ask fun _ => .built
  | claimComputeNode d => exact .skip fun _ => .skip fun _ => .ask fun _ => .built
  | claimConfidentialNode d =>
    exact .skip fun _ => .skip fun _ => .ask fun _ => .ask fun _ => .built
  | validatePublicNode d => exact .skip fun _ => .skip fun _ => .skip fun _ => .built
  | activateNode d => exact .skip fun _ => .skip fun _ => .built
  | createAgent d => exact .skip fun _ => .skip fun _ => .skip fun _ => .ask fun _ => .built
  | validateAgent d => exact .skip fun _ => .skip fun _ => .skip fun _ => .built
  | createSession d => exact .skip fun _ => .skip fun _ => .skip fun _ => .skip fun _ => .built
  | setSession d =>
    exact .skip fun _ => .skip fun _ => .skip fun _ => .skip fun _ => .skip fun _ =>
      .ask fun _ => .ask fun _ => .ask fun _ => .ask fun _ => .built
  | contributeToSession d => exact .skip fun _ => .skip fun _ => .skip fun _ => .ask fun _ => .built
  | withdrawFromSession d => exact .skip fun _ => .skip fun _ => .skip fun _ => .ask fun _ => .built
  | submitTask d =>
    exact .skip fun _ => .skip fun _ => .skip fun _ => .skip fun _ => .ask fun _ => .built
  | claimTask d =>
    exact .skip fun _ => .skip fun _ => .skip fun _ => .skip fun _ => .ask fun _ => .built
  | submitTaskResult d =>
    exact .skip fun _ => .skip fun _ => .skip fun _ => .ask fun _ => .ask fun _ => .built
  | submitTaskValidation d =>
    exact .skip fun _ => .skip fun _ => .skip fun _ => .skip fun _ => .skip fun _ => .built

private theorem InitializeNetwork.exists_accounts {d : InitializeNetwork} {program : Address}
    {i : Instruction} (h : d.instruction program = .ok i) :
    ∃ authority, d.authority = some authority ∧
      i.accounts =
        [.signing authority, .writable ((Derivation.networkConfig authority).address program),
          .readonly Address.systemProgram] ++
        (Derivation.tasks program ((Derivation.networkConfig authority).address program)
          d.allocateTasks.toNat).map .writable := by
  rw [InitializeNetwork.instruction] at h
  obtain ⟨authority, hauthority, h⟩ := Except.bind_eq_ok_iff.mp h
  obtain ⟨cid, -, h⟩ := Except.bind_eq_ok_iff.mp h
  exact ⟨authority, required_eq_ok_iff.mp hauthority,
    (Arguments.instruction_eq_ok_iff.mp h).2.1⟩

/-- The data of what is built from a draft begins with the hash of its name, goes on with what the
draft asks for, and tells both. What sets up a network names an account for each of the tasks that
its data asks for, in slot order. -/
theorem data_tells {d : Draft} {program : Address} {i : Instruction}
    (h : d.instruction program = .ok i) :
    ∃ args, d.arguments? = some args ∧ args.kind = d.kind ∧
      i.data = (Discriminator.ofName "global" (Enumeration.name d.kind)).toList ++
        Borsh.encode args.fields ∧
      Arguments.ofData? i.data = some args ∧
      (∀ (other : Draft) (program' : Address) (j : Instruction),
        other.instruction program' = .ok j → j.data = i.data →
          other.kind = d.kind ∧ other.arguments? = d.arguments?) ∧
      ∀ start, d = .initializeNetwork start →
        ∃ authority cid count measurements validations tasks,
          start.authority = some authority ∧
          args = .initializeNetwork cid count measurements validations ∧
          i.accounts =
            [.signing authority, .writable ((Derivation.networkConfig authority).address program),
              .readonly Address.systemProgram] ++ tasks ∧
          tasks.length = count.toNat ∧
          ∀ slot < count, tasks[slot.toNat]? = some {
            address := (Derivation.task ((Derivation.networkConfig authority).address program)
              slot).address program
            isSigner := false
            isWritable := true } := by
  obtain ⟨args, accounts, hargs, hkind, hbuilt⟩ := asks_instruction program d i h
  obtain ⟨-, -, hdata⟩ := Arguments.instruction_eq_ok_iff.mp hbuilt
  have hread : Arguments.ofData? i.data = some args := Arguments.ofData?_eq_some_iff.mpr hdata
  refine ⟨args, hargs, hkind, ?_, hread, ?_, ?_⟩
  · rw [← hkind, ← InstructionKind.discriminator_eq_ofName]
    exact (Arguments.data?_eq_some_iff.mp hdata).2.symm
  · intro other program' j hj hsame
    obtain ⟨args', accounts', hargs', hkind', hbuilt'⟩ := asks_instruction program' other j hj
    obtain ⟨-, -, hdata'⟩ := Arguments.instruction_eq_ok_iff.mp hbuilt'
    rw [hsame, ← Arguments.ofData?_eq_some_iff, hread, Option.some.injEq] at hdata'
    subst hdata'
    exact ⟨hkind'.symm.trans hkind, hargs'.trans hargs.symm⟩
  · rintro start rfl
    obtain ⟨authority, hauthority, haccounts⟩ := InitializeNetwork.exists_accounts h
    obtain ⟨cid, -, hargs⟩ := Option.bind_eq_some_iff.mp hargs
    refine ⟨authority, cid, _, _, _, _, hauthority, (Option.some.inj hargs).symm, haccounts, ?_, ?_⟩
    · rw [List.length_map, Derivation.length_tasks]
    · intro slot hslot
      rw [List.getElem?_map, Derivation.getElem?_tasks hslot]
      rfl

/-- A draft of a network with two tasks and one approved release. -/
def InitializeNetwork.twoTasks : InitializeNetwork where
  authority := some (.replicate 32 1)
  cidConfig := some "bafy"
  allocateTasks := 2
  approvedCodeMeasurements := [⟨.replicate 32 9, ⟨1, 2, 3⟩⟩]

/-- What is built from that draft. -/
def InitializeNetwork.twoTasksInstruction : Instruction where
  program := Address.program
  accounts :=
    [.signing (.replicate 32 1),
      .writable ((Derivation.networkConfig (.replicate 32 1)).address Address.program),
      .readonly Address.systemProgram] ++
    (Derivation.tasks Address.program
      ((Derivation.networkConfig (.replicate 32 1)).address Address.program) 2).map .writable
  data := [75, 50, 251, 50, 0, 159, 20, 5] ++ [4, 0, 0, 0, 98, 97, 102, 121] ++
    [2, 0, 0, 0, 0, 0, 0, 0] ++ [1, 0, 0, 0] ++ List.replicate 32 9 ++ [1, 0, 2, 0, 3, 0] ++
    [1, 0, 0, 0]

theorem data_tells_twoTasks :
    (Draft.initializeNetwork .twoTasks).instruction Address.program =
      .ok InitializeNetwork.twoTasksInstruction ∧
    Arguments.ofData? InitializeNetwork.twoTasksInstruction.data =
      some (.initializeNetwork "bafy" 2 [⟨.replicate 32 9, ⟨1, 2, 3⟩⟩] 1) := by
  have hbuilt : (Draft.initializeNetwork .twoTasks).instruction Address.program =
      .ok InitializeNetwork.twoTasksInstruction := rfl
  obtain ⟨args, hargs, -, -, hread, -⟩ := data_tells hbuilt
  cases hargs
  exact ⟨hbuilt, hread⟩

end Draft

end ComputeNet
