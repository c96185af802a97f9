import ComputeNet.Proofs.Account.Correspondence
import ComputeNet.Proofs.Borsh.Cut
import ComputeNet.Proofs.Event.Lines

/-!
# Cut account data and cut events

The formats of all records and of the payloads of all events are delimited. So account data and
the bytes of events are never read where their end is missing, and the only fault that is met is
that they are too short (`error_of_cut`).
-/

namespace ComputeNet

open Borsh (Delimited fits decode_take)

/-- A cut after the discriminator is a cut of what follows it. -/
theorem Discriminator.take_append {d : Discriminator} {body : Bytes} {n : Nat} (h8 : ¬n < 8)
    (hn : n < (d.toList ++ body).length) :
    (d.toList ++ body).take n = d.toList ++ body.take (n - 8) ∧ n - 8 < body.length := by
  have hlength : d.toList.length = 8 := d.length_toList
  rw [List.length_append, hlength] at hn
  constructor
  · rw [List.take_append, hlength, List.take_of_length_le]
    omega
  · omega

/-- A front that is not the whole is what a cut leaves. -/
theorem exists_eq_take_of_prefix {front whole : Bytes} (hfront : front <+: whole)
    (hne : front ≠ whole) : front = whole.take front.length ∧ front.length < whole.length := by
  refine ⟨List.prefix_iff_eq_take.mp hfront, Nat.lt_of_le_of_ne hfront.length_le ?_⟩
  intro hlength
  exact hne (hfront.eq_of_length hlength)

/-! ## Account data -/

namespace Account

variable {α : Type} [Account α]

private theorem ofData_append_eq_error {body : Bytes} {cause : Borsh.Error}
    (h : (Borsh.decode body : Except Borsh.Error (α × Bytes)) = .error cause) :
    (ofData ((discriminator α).toList ++ body) : Except ClientError α) =
      .error (.decode (name α) cause) := by
  have hlength : (discriminator α).toList.length = 8 := (discriminator α).length_toList
  rw [ofData, if_neg (not_length_append_lt _ _), List.take_left' hlength, List.drop_left' hlength,
    if_neg (not_not_intro rfl), h]

/-- What is read of cut data. -/
private theorem ofData_take [Delimited α] {a : α} {n : Nat} (hfits : fits a = true)
    (hn : n < (toData a).length) :
    (ofData ((toData a).take n) : Except ClientError α) =
      .error (if n < 8 then .accountTooShort n else .decode (name α) .endOfInput) := by
  by_cases h8 : n < 8
  · have hlength : ((toData a).take n).length = n := by
      rw [List.length_take]
      omega
    rw [ofData, hlength, if_pos h8, if_pos h8]
  · obtain ⟨hsplit, hbody⟩ := Discriminator.take_append h8 hn
    rw [if_neg h8, toData, hsplit]
    exact ofData_append_eq_error (decode_take hfits hbody)

end Account

instance : Delimited NodeType := .ofTags

instance : Delimited NodeStatus := .ofTags

instance : Delimited AgentStatus := .ofTags

instance : Delimited SessionStatus := .ofTags

instance : Delimited TaskStatus := .ofTags

instance : Delimited ValidationStatus := .ofTags

instance : Delimited SemanticVersion := by
  unfold SemanticVersion.instBorsh
  exact .ofFields _ _

instance : Delimited CodeMeasurement := by
  unfold CodeMeasurement.instBorsh
  exact .ofFields _ _

instance : Delimited Validator := by
  unfold Validator.instBorsh
  exact .ofFields _ _

/-- A type with a number is cut at its tag or in the number. -/
instance : Delimited TaskType where
  decode_take {type n} _ hn := by
    cases n with
    | zero => cases type <;> rfl
    | succ n =>
      have hnumber (v : UInt64) (h : n < (Borsh.encode v).length) :
          (Borsh.decode ((Borsh.encode v).take n) : Except Borsh.Error (UInt64 × Bytes)) =
            .error .endOfInput := decode_take rfl h
      cases type with
      | completion model =>
        have hmodel := hnumber model (Nat.lt_of_succ_lt_succ hn)
        exact congrArg (do let (model, rest) ← ·; return (TaskType.completion model, rest)) hmodel
      | custom number =>
        have hcustom := hnumber number (Nat.lt_of_succ_lt_succ hn)
        exact congrArg (do let (number, rest) ← ·; return (TaskType.custom number, rest)) hcustom
      | humanInLoop => exact absurd (Nat.lt_of_succ_lt_succ hn) (Nat.not_lt_zero n)

instance : Delimited NetworkConfig := .ofFields _ _

instance : Delimited NodeInfo := .ofFields _ _

instance : Delimited Agent := .ofFields _ _

instance : Delimited Session := .ofFields _ _

instance : Delimited Contribution := .ofFields _ _

instance : Delimited Task := .ofFields _ _

instance : (type : AccountType) → Delimited type.Record
  | .networkConfig => inferInstanceAs (Delimited NetworkConfig)
  | .nodeInfo => inferInstanceAs (Delimited NodeInfo)
  | .agent => inferInstanceAs (Delimited Agent)
  | .session => inferInstanceAs (Delimited Session)
  | .task => inferInstanceAs (Delimited Task)
  | .contribution => inferInstanceAs (Delimited Contribution)

/-! ## Events -/

instance : Delimited TaskClaimed := by
  unfold instBorshTaskClaimed
  exact .ofFields _ _

instance : Delimited TaskResultSubmitted := by
  unfold instBorshTaskResultSubmitted
  exact .ofFields _ _

instance : Delimited TaskValidationSubmitted := by
  unfold instBorshTaskValidationSubmitted
  exact .ofFields _ _

instance : Delimited SessionSet := by
  unfold instBorshSessionSet
  exact .ofFields _ _

instance : Delimited ContributionMade := by
  unfold instBorshContributionMade
  exact .ofFields _ _

instance : Delimited SessionCompleted := by
  unfold instBorshSessionCompleted
  exact .ofFields _ _

instance : Delimited NodeVerdict := by
  unfold instBorshNodeVerdict
  exact .ofFields _ _

instance : Delimited AgentCreated := by
  unfold instBorshAgentCreated
  exact .ofFields _ _

namespace Event

private theorem readAs_take {α : Type} [Borsh α] [Delimited α] {make : α → Event} {p : α} {n : Nat}
    (hfits : Borsh.fits p = true) (hn : n < (Borsh.encode p).length) :
    readAs make ((Borsh.encode p).take n) = .error .endOfInput := by
  rw [readAs, decode_take hfits hn]
  rfl

/-- A payload of any kind is delimited. -/
private theorem decodeBody_take {e : Event} {n : Nat} (hfits : e.fits = true)
    (hn : n < e.body.length) : decodeBody e.kind (e.body.take n) = .error .endOfInput := by
  cases e
  all_goals exact readAs_take hfits hn

private theorem decode_append_eq_error {kind : EventKind} {body : Bytes} {cause : Borsh.Error}
    (h : decodeBody kind body = .error cause) :
    decode (kind.discriminator.toList ++ body) =
      .error (.decode (Enumeration.name kind) cause) := by
  rw [decode_append, h]
  rfl

/-- What is read of the cut bytes of an event. -/
private theorem decode_take_encode {e : Event} {n : Nat} (hfits : e.fits = true)
    (hn : n < e.encode.length) :
    decode (e.encode.take n) = .error
      (if n < 8 then .eventTooShort n else .decode (Enumeration.name e.kind) .endOfInput) := by
  by_cases h8 : n < 8
  · have hlength : (e.encode.take n).length = n := by
      rw [List.length_take]
      omega
    rw [if_pos h8, decode, dif_neg (by omega), hlength]
  · obtain ⟨hsplit, hbody⟩ := Discriminator.take_append h8 hn
    rw [if_neg h8, encode, hsplit]
    exact decode_append_eq_error (decodeBody_take hfits hbody)

end Event

/-! ## Both -/

/-- Where the end is missing, account data of any type and the bytes of any event are refused, for
no other fault than that they are too short: for the discriminator or, under the name of the type or
the kind, for what follows it. -/
theorem error_of_cut :
    (∀ (type : AccountType) (a : type.Record), fits a = true →
      ∀ front, front <+: Account.toData a → front ≠ Account.toData a →
        (Account.ofData front : Except ClientError type.Record) =
          .error (if front.length < 8 then .accountTooShort front.length
            else .decode (Account.name type.Record) .endOfInput)) ∧
    (∀ e : Event, e.fits = true → ∀ front, front <+: e.encode → front ≠ e.encode →
      Event.decode front =
        .error (if front.length < 8 then .eventTooShort front.length
          else .decode (Enumeration.name e.kind) .endOfInput)) ∧
    Borsh.Error.endOfInput.message = "Unexpected length of input" := by
  refine ⟨?_, ?_, rfl⟩
  · intro type a hfits front hfront hne
    obtain ⟨hcut, hlt⟩ := exists_eq_take_of_prefix hfront hne
    have hread := Account.ofData_take hfits hlt
    rwa [← hcut] at hread
  · intro e hfits front hfront hne
    obtain ⟨hcut, hlt⟩ := exists_eq_take_of_prefix hfront hne
    have hread := Event.decode_take_encode hfits hlt
    rwa [← hcut] at hread

/-- An agent that was created. -/
def createdAgent : Event := .agentCreated ⟨1, .replicate 32 2, "cid"⟩

/-- A task that is cut within a character, and an event that is cut within the length of a text. -/
theorem error_of_cut_withinCharacter :
    ((Account.ofData ((Account.toData AccountType.validatedTask).take 147) :
        Except ClientError Task) = .error (.decode "Task" .endOfInput)) ∧
      Event.decode (createdAgent.encode.take 50) = .error (.decode "AgentCreated" .endOfInput) := by
  obtain ⟨hdata, hevent, -⟩ := error_of_cut
  have htask : ¬((Account.toData AccountType.validatedTask).take 147).length < 8 := by
    decide +kernel
  have hagent : ¬(createdAgent.encode.take 50).length < 8 := by decide +kernel
  constructor
  · have hread := hdata .task AccountType.validatedTask (by decide) _ (List.take_prefix 147 _)
      (by decide +kernel)
    exact hread.trans (congrArg Except.error (if_neg htask))
  · have hread := hevent createdAgent (by decide) _ (List.take_prefix 50 _) (by decide +kernel)
    exact hread.trans (congrArg Except.error (if_neg hagent))

end ComputeNet
