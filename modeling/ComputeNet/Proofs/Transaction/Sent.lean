import ComputeNet.Client
import ComputeNet.Proofs.Transaction.Written

/-!
# What comes of sending

A transaction is signed if no key is given that is not asked for, the message can be written, and no
key is missing that is asked for; the first fault is met first (`Transaction.exists_sign_eq_ok` and
what stands before it). So a client sends a transaction, or nothing at all: exactly if the
instructions can be written and the keys of the payer and of the further signers are those that are
asked for, one transaction is sent, and every address that must sign has signed it
(`Client.allOrNothing_send`).
-/

namespace ComputeNet

/-! ## Signing -/

namespace Transaction

variable {keys : List KeyPair} {message : Message} {bytes : Bytes}

private theorem sign_eq_unexpectedKey (h : ∃ k ∈ keys, k.address ∉ message.signers) :
    sign keys message = .error (.error .unexpectedKey) := by
  have hany : (keys.any fun k => k.address ∉ message.signers) = true := by
    simpa using h
  rw [sign, if_pos hany]
  rfl

section asked

variable (h : ∀ k ∈ keys, k.address ∈ message.signers)

include h

private theorem sign_eq_abort (hencode : message.encode = none) :
    sign keys message = .error .abort := by
  have hany : ¬(keys.any fun k => k.address ∉ message.signers) = true := by
    simpa using h
  rw [sign, if_neg hany, hencode]
  rfl

/-- Where every key is asked for and the message is written, the signatures are made if the keys
suffice. -/
theorem sign_of_written (hencode : message.encode = some bytes) :
    sign keys message =
      match message.signers.mapM fun signer => keys.find? fun k => k.address = signer with
      | none => .error (.error .missingKey)
      | some signing => .ok { signatures := signing.map fun k => k.sign bytes, message } := by
  have hany : ¬(keys.any fun k => k.address ∉ message.signers) = true := by
    simpa using h
  rw [sign, if_neg hany, hencode]
  rfl

private theorem sign_eq_missingKey (hencode : message.encode = some bytes)
    (hmissing : ∃ a ∈ message.signers, ∀ k ∈ keys, k.address ≠ a) :
    sign keys message = .error (.error .missingKey) := by
  obtain ⟨a, ha, hnone⟩ := hmissing
  have hfind : (keys.find? fun k => k.address = a) = none := by
    simpa using hnone
  rw [sign_of_written h hencode, mapM_eq_none_of_mem ha hfind]

end asked

/-- A signature of some bytes is that of a key with the address. -/
def SignedBy (keys : List KeyPair) (bytes : Bytes) (a : Address) (s : Signature) : Prop :=
  ∃ k ∈ keys, k.address = a ∧ s = Ed25519.sign k.seed bytes

theorem exists_sign_eq_ok (h : ∀ k ∈ keys, k.address ∈ message.signers)
    (hencode : message.encode = some bytes)
    (hall : ∀ a ∈ message.signers, ∃ k ∈ keys, k.address = a) :
    ∃ signatures, sign keys message = .ok ⟨signatures, message⟩ ∧
      List.Forall₂ (SignedBy keys bytes) message.signers signatures := by
  have hfound : ∀ a ∈ message.signers, ∃ k, (keys.find? fun k => k.address = a) = some k := by
    intro a ha
    obtain ⟨k, hk, haddress⟩ := hall a ha
    have hsome : (keys.find? fun k => k.address = a).isSome := by
      rw [List.find?_isSome]
      exact ⟨k, hk, by simpa using haddress⟩
    exact Option.isSome_iff_exists.mp hsome
  obtain ⟨signing, hsigning, hkeys⟩ := exists_mapM_eq_some hfound
  refine ⟨signing.map fun k => k.sign bytes, ?_, ?_⟩
  · rw [sign_of_written h hencode, hsigning]
  · rw [List.forall₂_map_right_iff]
    refine hkeys.imp fun a k hk => ⟨k, List.mem_of_find?_eq_some hk, ?_, rfl⟩
    simpa using List.find?_some hk

end Transaction

/-! ## Sending -/

namespace Client

open Message (required)

variable {e : Endpoint} {instructions : List Instruction} {payer : KeyPair}
  {signers : List KeyPair}

/-- The message that is signed. -/
def messageOf (payer : KeyPair) (instructions : List Instruction) : Message :=
  .compile payer.address Endpoint.fixedBlockhash instructions

/-- A call that fails leaves the endpoint as it was, whatever the cause. -/
private theorem eq_of_run_send_eq_error {e' : Endpoint} {failure : Failure ClientError}
    (h : e.run (send instructions payer signers) = (.error failure, e')) : e' = e := by
  rw [send, Endpoint.run_bind, Endpoint.run_asks] at h
  cases hblockhash : e.blockhash with
  | error cause =>
    rw [hblockhash] at h
    cases h
    rfl
  | ok blockhash =>
    rw [hblockhash] at h
    dsimp only at h
    split at h
    · split at h
      · cases h
        rfl
      · rw [Endpoint.run_send] at h
        split at h
        · cases h
          rfl
        · cases h
          rfl
        · cases h
    · cases h
      rfl

/-- Where the endpoint serves and the counts fit into bytes, signing decides. -/
theorem run_send_of_serving (hblockhash : Call.latestBlockhash ∉ e.faults.failing)
    (hcounted : (messageOf payer instructions).isCounted = true) :
    e.run (send instructions payer signers) =
      match Transaction.sign (signingKeys payer signers) (messageOf payer instructions) with
      | .error failure => (.error (failure.map .signing), e)
      | .ok t => e.run (Endpoint.send t) := by
  have hfixed : e.blockhash = .ok Endpoint.fixedBlockhash := by
    rw [Endpoint.blockhash, Endpoint.serve, if_neg hblockhash]
    rfl
  rw [send, Endpoint.run_bind, Endpoint.run_asks, hfixed]
  dsimp only
  rw [← messageOf, if_pos hcounted]
  cases Transaction.sign (signingKeys payer signers) (messageOf payer instructions) <;> rfl

section few

variable (hfew : (Message.keys payer.address instructions).dedup.length ≤ 255)

include hfew

theorem isCounted_messageOf : (messageOf payer instructions).isCounted = true :=
  Message.isCounted_compile hfew Endpoint.fixedBlockhash

theorem encode_messageOf_eq_none_iff :
    (messageOf payer instructions).encode = none ↔ ¬Message.Writable instructions := by
  rw [← Message.isSome_encode_compile_iff hfew Endpoint.fixedBlockhash, Bool.not_eq_true,
    Option.isSome_eq_false_iff, Option.isNone_iff_eq_none, messageOf]

theorem exists_encode_messageOf (h : Message.Writable instructions) :
    ∃ bytes, (messageOf payer instructions).encode = some bytes :=
  Option.ne_none_iff_exists'.mp fun hnone => (encode_messageOf_eq_none_iff hfew).mp hnone h

end few

/-- The payer is asked for, so that the other keys decide whether all keys are. -/
theorem forall_mem_signingKeys_iff :
    (∀ k ∈ signingKeys payer signers, k.address ∈ (messageOf payer instructions).signers) ↔
      ∀ k ∈ signers, k.address ∈ required payer.address instructions := by
  simp only [signingKeys, messageOf, Message.mem_signers_compile_iff, List.forall_mem_cons,
    List.mem_filter, decide_eq_true_eq]
  constructor
  · rintro ⟨hpayer, hothers⟩ k hk
    by_cases heq : k.address = payer.address
    · rw [heq]
      exact hpayer
    · exact hothers k ⟨hk, heq⟩
  · intro h
    exact ⟨List.mem_cons_self, fun k hk => h k hk.1⟩

/-- A signer with the payer's address adds nothing to the payer. -/
theorem exists_mem_signingKeys_iff {a : Address} :
    (∃ k ∈ signingKeys payer signers, k.address = a) ↔ ∃ k ∈ payer :: signers, k.address = a := by
  simp only [signingKeys, List.exists_mem_cons_iff, List.mem_filter, decide_eq_true_eq]
  constructor
  · rintro (hpayer | ⟨k, ⟨hk, -⟩, haddress⟩)
    · exact Or.inl hpayer
    · exact Or.inr ⟨k, hk, haddress⟩
  · rintro (hpayer | ⟨k, hk, haddress⟩)
    · exact Or.inl hpayer
    · by_cases heq : k.address = payer.address
      · exact Or.inl (heq.symm.trans haddress)
      · exact Or.inr ⟨k, ⟨hk, heq⟩, haddress⟩

/-- No other key than the payer's signs for the payer. -/
private theorem eq_payer_of_mem_signingKeys {k : KeyPair} (hk : k ∈ signingKeys payer signers)
    (haddress : k.address = payer.address) : k = payer := by
  rcases List.mem_cons.mp hk with rfl | hk
  · rfl
  · have hne := (List.mem_filter.mp hk).2
    simp [haddress] at hne

/-- A transaction with all the signatures that the instructions of a payer ask for, and no others.
What is signed are the bytes of its message. -/
structure Whole (instructions : List Instruction) (payer : KeyPair) (signers : List KeyPair)
    (bytes : Bytes) (t : Transaction) : Prop where
  message : t.message = messageOf payer instructions
  written : t.message.encode = some bytes
  /-- The payer's address is the first in the table. -/
  payer_first : t.message.addresses.head? = some payer.address
  /-- There are as many signatures as addresses that are asked for. -/
  length_signatures : t.signatures.length = (required payer.address instructions).dedup.length
  /-- The addresses at the front of the table have signed, in order, and they are those that are
  asked for. -/
  signed : List.Forall₂ (Transaction.SignedBy (payer :: signers) bytes) t.message.signers
    t.signatures
  mem_signers : ∀ a, a ∈ t.message.signers ↔ a ∈ required payer.address instructions
  /-- The first signature is the payer's. -/
  signature_first : t.signatures.head? = some (Ed25519.sign payer.seed bytes)

private theorem whole_of_signed {bytes : Bytes} {signatures : List Signature}
    (hencode : (messageOf payer instructions).encode = some bytes)
    (h : List.Forall₂ (Transaction.SignedBy (signingKeys payer signers) bytes)
      (messageOf payer instructions).signers signatures) :
    Whole instructions payer signers bytes ⟨signatures, messageOf payer instructions⟩ where
  message := rfl
  written := hencode
  payer_first := rfl
  length_signatures := by
    rw [← (Message.signers_compile_perm payer.address Endpoint.fixedBlockhash
      instructions).length_eq]
    exact h.length_eq.symm
  signed := by
    refine h.imp ?_
    rintro a s ⟨k, hk, haddress, rfl⟩
    refine ⟨k, ?_, haddress, rfl⟩
    rcases List.mem_cons.mp hk with rfl | hk
    · exact List.mem_cons_self
    · exact List.mem_cons_of_mem payer (List.mem_filter.mp hk).1
  mem_signers a := Message.mem_signers_compile_iff
  signature_first := by
    have hsigners := Message.signers_compile payer.address Endpoint.fixedBlockhash instructions
    change (messageOf payer instructions).signers = _ at hsigners
    rw [hsigners] at h
    cases h with
    | cons hfirst hrest =>
      obtain ⟨k, hk, haddress, rfl⟩ := hfirst
      rw [eq_payer_of_mem_signingKeys hk haddress]
      rfl

section serving

variable (hblockhash : Call.latestBlockhash ∉ e.faults.failing)
  (hcounted : (messageOf payer instructions).isCounted = true)

include hblockhash hcounted

private theorem run_send_eq_unexpectedKey
    (h : ∃ k ∈ signers, k.address ∉ required payer.address instructions) :
    e.run (send instructions payer signers) = (.error (.error (.signing .unexpectedKey)), e) := by
  have hunexpected : ∃ k ∈ signingKeys payer signers,
      k.address ∉ (messageOf payer instructions).signers := by
    by_contra hnone
    push Not at hnone
    obtain ⟨k, hk, hnot⟩ := h
    exact hnot (forall_mem_signingKeys_iff.mp hnone k hk)
  rw [run_send_of_serving hblockhash hcounted, Transaction.sign_eq_unexpectedKey hunexpected]
  rfl

variable (h : ∀ k ∈ signers, k.address ∈ required payer.address instructions)

include h

theorem run_send_eq_abort (hencode : (messageOf payer instructions).encode = none) :
    e.run (send instructions payer signers) = (.error .abort, e) := by
  rw [run_send_of_serving hblockhash hcounted,
    Transaction.sign_eq_abort (forall_mem_signingKeys_iff.mpr h) hencode]
  rfl

variable {bytes : Bytes} (hencode : (messageOf payer instructions).encode = some bytes)

include hencode

private theorem run_send_eq_missingKey
    (hmissing : ∃ a ∈ required payer.address instructions,
      ∀ k ∈ payer :: signers, k.address ≠ a) :
    e.run (send instructions payer signers) = (.error (.error (.signing .missingKey)), e) := by
  obtain ⟨a, ha, hnone⟩ := hmissing
  have hnot : ∀ k ∈ signingKeys payer signers, k.address ≠ a := by
    intro k hk haddress
    obtain ⟨k', hk', haddress'⟩ := exists_mem_signingKeys_iff.mp ⟨k, hk, haddress⟩
    exact hnone k' hk' haddress'
  rw [run_send_of_serving hblockhash hcounted,
    Transaction.sign_eq_missingKey (forall_mem_signingKeys_iff.mpr h) hencode
      ⟨a, Message.mem_signers_compile_iff.mpr ha, hnot⟩]
  rfl

theorem exists_run_send_eq_ok (hsend : Call.sendTransaction ∉ e.faults.failing)
    (hall : ∀ a ∈ required payer.address instructions, ∃ k ∈ payer :: signers, k.address = a) :
    ∃ t, Whole instructions payer signers bytes t ∧
      e.run (send instructions payer signers) =
        (.ok (Ed25519.sign payer.seed bytes), { e with sent := e.sent ++ [t] }) := by
  obtain ⟨signatures, hsign, hsigned⟩ :=
    Transaction.exists_sign_eq_ok (forall_mem_signingKeys_iff.mpr h) hencode fun a ha =>
      exists_mem_signingKeys_iff.mpr (hall a (Message.mem_signers_compile_iff.mp ha))
  have hwhole := whole_of_signed hencode hsigned
  have hserve : e.serve .sendTransaction = .ok () := if_neg hsend
  refine ⟨_, hwhole, ?_⟩
  rw [run_send_of_serving hblockhash hcounted, hsign]
  dsimp only
  rw [Endpoint.run_send, hserve, hwhole.signature_first]

end serving

/-- It is not enough that the keys are those that are asked for: more data than sixteen bits can
count cannot be sent. -/
theorem not_forall_ok_iff_asked :
    ¬∀ (e : Endpoint) (instructions : List Instruction) (payer : KeyPair) (signers : List KeyPair),
      (Message.keys payer.address instructions).dedup.length ≤ 255 →
      Call.latestBlockhash ∉ e.faults.failing → Call.sendTransaction ∉ e.faults.failing →
      ((∃ s e', e.run (send instructions payer signers) = (.ok s, e')) ↔
        (∀ k ∈ signers, k.address ∈ required payer.address instructions) ∧
        ∀ a ∈ required payer.address instructions, ∃ k ∈ payer :: signers, k.address = a) := by
  intro h
  let payer := KeyPair.ofSeed (.replicate 32 1)
  let long : Instruction := ⟨Address.program, [], List.replicate 0x10000 0⟩
  have hfew : (Message.keys payer.address [long]).dedup.length ≤ 255 :=
    Nat.le_trans (List.dedup_sublist _).length_le (by decide)
  have hrequired : required payer.address [long] = [payer.address] := rfl
  have hnot : ¬Message.Writable [long] := by
    intro hwritable
    have hlt := hwritable.data long List.mem_cons_self
    rw [List.length_replicate] at hlt
    exact Nat.lt_irrefl _ hlt
  have habort : ({} : Endpoint).run (send [long] payer []) = (.error .abort, {}) :=
    run_send_eq_abort List.not_mem_nil (isCounted_messageOf hfew) (by simp)
      ((encode_messageOf_eq_none_iff hfew).mpr hnot)
  obtain ⟨s, e', hok⟩ := (h {} [long] payer [] hfew List.not_mem_nil List.not_mem_nil).mpr
    ⟨by simp, by simp [hrequired]⟩
  rw [habort] at hok
  cases hok

/-- What comes of sending instructions. -/
structure AllOrNothing (e : Endpoint) (instructions : List Instruction) (payer : KeyPair)
    (signers : List KeyPair) : Prop where
  /-- A transaction is sent exactly if the instructions can be written and the keys are those that
  are asked for. -/
  ok_iff : (∃ s e', e.run (send instructions payer signers) = (.ok s, e')) ↔
    Message.Writable instructions ∧
      (∀ k ∈ signers, k.address ∈ required payer.address instructions) ∧
      ∀ a ∈ required payer.address instructions, ∃ k ∈ payer :: signers, k.address = a
  /-- A key that is not asked for is the error, even where another one is missing. -/
  unexpected : (∃ k ∈ signers, k.address ∉ required payer.address instructions) →
    e.run (send instructions payer signers) = (.error (.error (.signing .unexpectedKey)), e)
  missing : Message.Writable instructions →
    (∀ k ∈ signers, k.address ∈ required payer.address instructions) →
    (∃ a ∈ required payer.address instructions, ∀ k ∈ payer :: signers, k.address ≠ a) →
    e.run (send instructions payer signers) = (.error (.error (.signing .missingKey)), e)
  /-- Where the instructions cannot be written the program gives up. -/
  abort : ¬Message.Writable instructions →
    (∀ k ∈ signers, k.address ∈ required payer.address instructions) →
    e.run (send instructions payer signers) = (.error .abort, e)
  /-- One transaction is sent, which goes by its first signature, and nothing else changes at the
  endpoint. -/
  of_ok : ∀ s e', e.run (send instructions payer signers) = (.ok s, e') →
    ∃ bytes t, Whole instructions payer signers bytes t ∧ t.signatures.head? = some s ∧
      e' = { e with sent := e.sent ++ [t] }
  /-- A call that fails leaves the endpoint as it was. -/
  of_error : ∀ failure e', e.run (send instructions payer signers) = (.error failure, e') → e' = e

/-- Sending is all or nothing. Where the endpoint serves and no more than 255 addresses are in use,
a transaction is sent exactly if the instructions can be written, each of the signers is asked for
and each address that is asked for is the payer's or a signer's. -/
theorem allOrNothing_send (e : Endpoint) (instructions : List Instruction) (payer : KeyPair)
    (signers : List KeyPair) (hfew : (Message.keys payer.address instructions).dedup.length ≤ 255)
    (hblockhash : Call.latestBlockhash ∉ e.faults.failing)
    (hsend : Call.sendTransaction ∉ e.faults.failing) :
    AllOrNothing e instructions payer signers ∧
      SigningError.unexpectedKey.message = "keypair-pubkey mismatch" ∧
      SigningError.missingKey.message = "not enough signers" := by
  have hcounted := isCounted_messageOf hfew
  have hunexpected (hnot : ∃ k ∈ signers, k.address ∉ required payer.address instructions) :=
    run_send_eq_unexpectedKey hblockhash hcounted hnot
  have habort (hnot : ¬Message.Writable instructions)
      (hasked : ∀ k ∈ signers, k.address ∈ required payer.address instructions) :=
    run_send_eq_abort hblockhash hcounted hasked ((encode_messageOf_eq_none_iff hfew).mpr hnot)
  have hmissing (h : Message.Writable instructions)
      (hasked : ∀ k ∈ signers, k.address ∈ required payer.address instructions) :=
    have ⟨_, hencode⟩ := exists_encode_messageOf hfew h
    run_send_eq_missingKey hblockhash hcounted hasked hencode
  have hiff : (∃ s e', e.run (send instructions payer signers) = (.ok s, e')) ↔
      Message.Writable instructions ∧
        (∀ k ∈ signers, k.address ∈ required payer.address instructions) ∧
        ∀ a ∈ required payer.address instructions, ∃ k ∈ payer :: signers, k.address = a := by
    constructor
    · rintro ⟨s, e', hok⟩
      have hasked : ∀ k ∈ signers, k.address ∈ required payer.address instructions := by
        by_contra hnot
        push Not at hnot
        rw [hunexpected hnot] at hok
        cases hok
      have hwritable : Message.Writable instructions := by
        by_contra hnot
        rw [habort hnot hasked] at hok
        cases hok
      refine ⟨hwritable, hasked, ?_⟩
      by_contra hnot
      push Not at hnot
      rw [hmissing hwritable hasked hnot] at hok
      cases hok
    · rintro ⟨hwritable, hasked, hall⟩
      obtain ⟨bytes, hencode⟩ := exists_encode_messageOf hfew hwritable
      obtain ⟨t, -, ht⟩ := exists_run_send_eq_ok hblockhash hcounted hasked hencode hsend hall
      exact ⟨_, _, ht⟩
  refine ⟨⟨hiff, hunexpected, hmissing, habort, ?_, fun _ _ => eq_of_run_send_eq_error⟩, rfl, rfl⟩
  intro s e' hok
  obtain ⟨hwritable, hasked, hall⟩ := hiff.mp ⟨s, e', hok⟩
  obtain ⟨bytes, hencode⟩ := exists_encode_messageOf hfew hwritable
  obtain ⟨t, hwhole, ht⟩ := exists_run_send_eq_ok hblockhash hcounted hasked hencode hsend hall
  rw [hok] at ht
  cases ht
  exact ⟨bytes, t, hwhole, hwhole.signature_first, rfl⟩

/-- A payer and another signer, who is named once with and once without its signature. -/
theorem allOrNothing_send_twoSigners :
    let payer := KeyPair.ofSeed (.replicate 32 1)
    let other := KeyPair.ofSeed (.replicate 32 2)
    let instructions : List Instruction :=
      [⟨Address.program, [.writable other.address, .signing payer.address], [1]⟩,
        ⟨Address.program, [⟨other.address, true, false⟩], []⟩]
    (Message.keys payer.address instructions).dedup.length ≤ 255 ∧
      Call.latestBlockhash ∉ ({} : Endpoint).faults.failing ∧
      Call.sendTransaction ∉ ({} : Endpoint).faults.failing ∧
      ∃ s e', ({} : Endpoint).run (send instructions payer [other, payer, other]) = (.ok s, e') ∧
        ∃ t, e'.sent = [t] ∧ t.signatures.head? = some s := by
  intro payer other instructions
  have hfew : (Message.keys payer.address instructions).dedup.length ≤ 255 :=
    Nat.le_trans (List.dedup_sublist _).length_le (by decide)
  have hrequired : required payer.address instructions =
      [payer.address, payer.address, other.address] := rfl
  have hwritable : Message.Writable instructions := ⟨by decide, by simp [instructions],
    by simp [instructions]⟩
  obtain ⟨⟨hiff, -, -, -, hsent, -⟩, -⟩ := allOrNothing_send {} instructions payer
    [other, payer, other] hfew List.not_mem_nil List.not_mem_nil
  obtain ⟨s, e', hok⟩ := hiff.mpr ⟨hwritable, by simp [hrequired], by simp [hrequired]⟩
  obtain ⟨bytes, t, -, hfirst, rfl⟩ := hsent s e' hok
  exact ⟨hfew, List.not_mem_nil, List.not_mem_nil, s, _, hok, t, rfl, hfirst⟩

end Client

end ComputeNet
