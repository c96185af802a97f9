import Mathlib.Data.List.Nodup
import Mathlib.Data.List.TakeWhile
import ComputeNet.Event.Log
import ComputeNet.Proofs.Borsh.Lawful
import ComputeNet.Proofs.Text.Base64

/-!
# Lines with events

The bytes of an event are read as that event, whatever stands after them, and nothing else is
(`Event.decode_eq_ok_iff`). A line holds an event exactly if it is the marker, blanks, the base 64
of bytes that begin with those of the event, and blanks (`Log.read_corresponds`).
-/

namespace ComputeNet

open Borsh (Lawful)

/-! ## The formats of the payloads -/

instance : Lawful TaskClaimed :=
  .ofFields TaskClaimed.fields
    (fun (sessionSlotId, taskSlotId, computeNode, maxTaskCost) =>
      ⟨sessionSlotId, taskSlotId, computeNode, maxTaskCost⟩)
    (fun _ => rfl) (fun _ => rfl)

instance : Lawful TaskResultSubmitted :=
  .ofFields TaskResultSubmitted.fields
    (fun (sessionSlotId, taskSlotId, inputCid, outputCid) =>
      ⟨sessionSlotId, taskSlotId, inputCid, outputCid⟩)
    (fun _ => rfl) (fun _ => rfl)

instance : Lawful TaskValidationSubmitted :=
  .ofFields TaskValidationSubmitted.fields
    (fun (sessionSlotId, taskSlotId, validator, paymentAmount, approved, sessionCompleted,
        currentIteration, vaultBalance, lockedForTasks) =>
      ⟨sessionSlotId, taskSlotId, validator, paymentAmount, approved, sessionCompleted,
       currentIteration, vaultBalance, lockedForTasks⟩)
    (fun _ => rfl) (fun _ => rfl)

instance : Lawful SessionSet :=
  .ofFields SessionSet.fields
    (fun (sessionSlotId, owner, agentSlotId, taskSlotId, specificationCid, maxIterations,
        initialDeposit) =>
      ⟨sessionSlotId, owner, agentSlotId, taskSlotId, specificationCid, maxIterations,
       initialDeposit⟩)
    (fun _ => rfl) (fun _ => rfl)

instance : Lawful ContributionMade :=
  .ofFields ContributionMade.fields
    (fun (sessionSlotId, contributor, depositAmount, sharesMinted, totalShares) =>
      ⟨sessionSlotId, contributor, depositAmount, sharesMinted, totalShares⟩)
    (fun _ => rfl) (fun _ => rfl)

instance : Lawful SessionCompleted :=
  .ofFields SessionCompleted.fields
    (fun (sessionSlotId, finalIteration, vaultBalance) =>
      ⟨sessionSlotId, finalIteration, vaultBalance⟩)
    (fun _ => rfl) (fun _ => rfl)

instance : Lawful NodeVerdict :=
  .ofFields NodeVerdict.fields
    (fun (node, validator, sessionSlotId, taskSlotId) =>
      ⟨node, validator, sessionSlotId, taskSlotId⟩)
    (fun _ => rfl) (fun _ => rfl)

instance : Lawful AgentCreated :=
  .ofFields AgentCreated.fields
    (fun (agentSlotId, owner, agentConfigCid) =>
      ⟨agentSlotId, owner, agentConfigCid⟩)
    (fun _ => rfl) (fun _ => rfl)

/-! ## Kinds -/

namespace EventKind

theorem mem_members (kind : EventKind) : kind ∈ (Enumeration.members : List EventKind) := by
  cases kind <;> decide

theorem nodup_map_discriminator :
    ((Enumeration.members : List EventKind).map discriminator).Nodup := by
  decide +kernel

theorem discriminator_injective {kind other : EventKind}
    (h : kind.discriminator = other.discriminator) : kind = other :=
  List.inj_on_of_nodup_map nodup_map_discriminator (mem_members kind) (mem_members other) h

/-- A kind is found under its own discriminator and no other. -/
theorem ofDiscriminator?_eq_some_iff {d : Discriminator} {kind : EventKind} :
    ofDiscriminator? d = some kind ↔ d = kind.discriminator := by
  have hown {other : EventKind} (h : (d, other) ∈ byDiscriminator) : d = other.discriminator := by
    obtain ⟨k, -, hk⟩ := List.mem_map.mp h
    cases hk
    rfl
  have hfound {other : EventKind} (h : ofDiscriminator? d = some other) :
      d = other.discriminator := by
    obtain ⟨before, after, hsplit, -⟩ := List.lookup_eq_some_iff.mp h
    exact hown (hsplit ▸ List.mem_append_right before List.mem_cons_self)
  constructor
  · exact hfound
  · intro h
    have hmem : (d, kind) ∈ byDiscriminator :=
      List.mem_map.mpr ⟨kind, mem_members kind, by rw [h]⟩
    cases hlookup : ofDiscriminator? d with
    | none =>
      have hnone := List.lookup_eq_none_iff.mp hlookup (d, kind) hmem
      simp at hnone
    | some other => rw [discriminator_injective ((hfound hlookup).symm.trans h)]

end EventKind

/-! ## Bytes of events -/

namespace Event

private theorem readAs_eq_ok_iff {α : Type} [Borsh α] [Lawful α] {make : α → Event} {bs : Bytes}
    {e : Event} :
    readAs make bs = .ok e ↔ ∃ p, make p = e ∧ Borsh.fits p = true ∧ Borsh.encode p <+: bs := by
  rw [readAs, Except.map_eq_ok_iff]
  constructor
  · rintro ⟨⟨p, rest⟩, hdecode, rfl⟩
    obtain ⟨hfits, rfl⟩ := Borsh.decode_eq_ok_iff.mp hdecode
    exact ⟨p, rfl, hfits, List.prefix_append _ _⟩
  · rintro ⟨p, rfl, hfits, rest, rfl⟩
    exact ⟨(p, rest), Borsh.decode_eq_ok_iff.mpr ⟨hfits, rfl⟩, rfl⟩

/-- A payload is read as an event of its kind. -/
theorem decodeBody_eq_ok_iff {kind : EventKind} {bs : Bytes} {e : Event} :
    decodeBody kind bs = .ok e ↔ e.kind = kind ∧ e.fits = true ∧ e.body <+: bs := by
  cases kind
  all_goals
    rw [decodeBody, readAs_eq_ok_iff]
    constructor
    · rintro ⟨p, rfl, h⟩
      exact ⟨rfl, h⟩
    · rintro ⟨hkind, h⟩
      cases e <;> cases hkind
      exact ⟨_, rfl, h⟩

/-- What stands after the discriminator of a kind is read as a payload of that kind. -/
theorem decode_append (kind : EventKind) (body : Bytes) :
    decode (kind.discriminator.toList ++ body) =
      (decodeBody kind body).mapError (.decode (Enumeration.name kind)) := by
  rw [decode, dif_pos (kind.discriminator.le_length_append body), kind.discriminator.take_append,
    List.drop_left' kind.discriminator.length_toList]
  dsimp only
  rw [EventKind.ofDiscriminator?_eq_some_iff.mpr rfl]
  dsimp only
  cases decodeBody kind body <;> rfl

/-- A byte string is read as an event exactly if it begins with the bytes of the event and the
lengths in it fit their format. -/
theorem decode_eq_ok_iff {data : Bytes} {e : Event} :
    decode data = .ok e ↔ e.fits = true ∧ e.encode <+: data := by
  constructor
  · intro h
    rw [decode] at h
    split at h
    next hlength =>
      dsimp only at h
      split at h
      · cases h
      next kind hkind =>
        split at h
        · cases h
        next e' hbody =>
          cases h
          obtain ⟨rfl, hfits, rest, hrest⟩ := decodeBody_eq_ok_iff.mp hbody
          have hfront :=
            congrArg FixedBytes.toList (EventKind.ofDiscriminator?_eq_some_iff.mp hkind)
          refine ⟨hfits, rest, ?_⟩
          rw [encode, ← hfront, List.append_assoc, hrest]
          exact List.take_append_drop 8 data
    next => cases h
  · rintro ⟨hfits, rest, rfl⟩
    have hbody := decodeBody_eq_ok_iff.mpr ⟨rfl, hfits, List.prefix_append e.body rest⟩
    rw [encode, List.append_assoc, decode_append, hbody]
    rfl

end Event

/-! ## Blanks around a text -/

namespace Text

/-- Text that begins with no blank is kept as it is. -/
theorem dropWhile_append {text rest : List Char} (hne : text ≠ [])
    (h : ∀ c ∈ text, isBlank c = false) : (text ++ rest).dropWhile isBlank = text ++ rest := by
  cases text with
  | nil => exact absurd rfl hne
  | cons c text =>
    have hc : ¬isBlank c = true := Bool.not_eq_true _ |>.mpr (h c List.mem_cons_self)
    exact List.dropWhile_cons_of_neg hc

private theorem trim_append {before text after : List Char}
    (hbefore : ∀ c ∈ before, isBlank c = true)
    (htext : ∀ c ∈ text, isBlank c = false) (hafter : ∀ c ∈ after, isBlank c = true) :
    trim (before ++ (text ++ after)) = text := by
  rw [trim, List.dropWhile_append_of_pos hbefore]
  by_cases hne : text = []
  · rw [hne, List.nil_append, List.dropWhile_eq_nil_iff.mpr hafter]
    rfl
  · have hreverse : ∀ c ∈ text.reverse, isBlank c = false :=
      fun c hc => htext c (List.mem_reverse.mp hc)
    have hkeep : text.reverse.dropWhile isBlank = text.reverse := by
      have hne' : text.reverse ≠ [] := fun h => hne (List.reverse_eq_nil_iff.mp h)
      rw [← List.append_nil text.reverse, dropWhile_append hne' hreverse]
    rw [dropWhile_append hne htext, List.reverse_append, List.dropWhile_append_of_pos, hkeep,
      List.reverse_reverse]
    exact fun c hc => hafter c (List.mem_reverse.mp hc)

/-- A text is what trimming leaves of it, between blanks. -/
private theorem exists_eq_append_trim (cs : List Char) :
    ∃ before after, (∀ c ∈ before, isBlank c = true) ∧ (∀ c ∈ after, isBlank c = true) ∧
      cs = before ++ (trim cs ++ after) := by
  refine ⟨cs.takeWhile isBlank, ((cs.dropWhile isBlank).reverse.takeWhile isBlank).reverse, ?_, ?_,
    ?_⟩
  · exact List.all_eq_true.mp List.all_takeWhile
  · exact fun c hc => List.all_eq_true.mp List.all_takeWhile c (List.mem_reverse.mp hc)
  · rw [trim, ← List.reverse_append, List.takeWhile_append_dropWhile, List.reverse_reverse,
      List.takeWhile_append_dropWhile]

end Text

/-! ## Lines -/

namespace Log

/-- The line is the marker and, between blanks, the base 64 of the bytes. -/
def Carries (line : String) (data : Bytes) : Prop :=
  ∃ before after : String, (∀ c ∈ before.toList, Text.isBlank c = true) ∧
    (∀ c ∈ after.toList, Text.isBlank c = true) ∧
    line = marker ++ before ++ Base64.encodeText data ++ after

private theorem payload?_eq_some_iff {line : String} {payload : List Char} :
    payload? line = some payload ↔ line.toList = marker.toList ++ payload := by
  rw [payload?, ← String.length_toList]
  constructor
  · intro h
    split at h
    next hmarker =>
      cases h
      exact List.prefix_iff_eq_append.mp (List.isPrefixOf_iff_prefix.mp hmarker) |>.symm
    next => cases h
  · intro h
    rw [h, if_pos (List.isPrefixOf_iff_prefix.mpr (List.prefix_append _ _)), List.drop_left]

private theorem payload?_eq_none_iff {line : String} :
    payload? line = none ↔ ¬marker.toList <+: line.toList := by
  rw [payload?, ← List.isPrefixOf_iff_prefix]
  split
  next h => exact iff_of_false (fun h => nomatch h) (fun hnot => hnot h)
  next h => exact iff_of_true rfl h

/-- No symbol of base 64 is blank. -/
private theorem isBlank_of_mem_encodeText {data : Bytes} :
    ∀ c ∈ (Base64.encodeText data).toList, Text.isBlank c = false := by
  intro c hc
  have hall : ∀ n : Fin 128, 0x2B ≤ n.val → Text.isBlank (Char.ofNat n) = false := by
    decide +kernel
  rw [Base64.encodeText, String.toList_ofList] at hc
  obtain ⟨b, hb, rfl⟩ := List.mem_map.mp hc
  obtain ⟨hle, hlt⟩ := Base64.encode_range b hb
  exact hall ⟨b.toNat, hlt⟩ hle

private theorem decode_ofList_eq_ok_iff {cs : List Char} {data : Bytes} :
    Base64.decode (Utf8.encode (String.ofList cs)) = .ok data ↔
      cs = (Base64.encodeText data).toList := by
  rw [Base64.decode_eq_ok_iff, ← Base64.utf8_encodeText]
  constructor
  · intro h
    rw [← Utf8.encode_injective h, String.toList_ofList]
  · rintro rfl
    rw [String.ofList_toList]

/-- Bytes are read from a line exactly if it carries them. -/
theorem carries_iff {line : String} {data : Bytes} :
    Carries line data ↔ ∃ payload, payload? line = some payload ∧
      Base64.decode (Utf8.encode (String.ofList (Text.trim payload))) = .ok data := by
  simp only [decode_ofList_eq_ok_iff, payload?_eq_some_iff]
  constructor
  · rintro ⟨before, after, hbefore, hafter, rfl⟩
    refine ⟨before.toList ++ ((Base64.encodeText data).toList ++ after.toList), ?_, ?_⟩
    · simp only [String.toList_append, List.append_assoc]
    · exact Text.trim_append hbefore isBlank_of_mem_encodeText hafter
  · rintro ⟨payload, hline, htrim⟩
    obtain ⟨before, after, hbefore, hafter, hpayload⟩ := Text.exists_eq_append_trim payload
    refine ⟨String.ofList before, String.ofList after, ?_, ?_, String.toList_injective ?_⟩
    · rwa [String.toList_ofList]
    · rwa [String.toList_ofList]
    · simp only [String.toList_append, String.toList_ofList, List.append_assoc]
      rw [hline, ← htrim, ← hpayload]

/-- What a line carries decides which event is read. -/
private theorem read_of_carries {line : String} {data : Bytes} (h : Carries line data) :
    read line = some <$> Event.decode data := by
  obtain ⟨payload, hpayload, hdata⟩ := carries_iff.mp h
  rw [read, hpayload]
  dsimp only
  rw [hdata]

theorem exists_carries_of_read {line : String} {e : Event} (h : read line = .ok (some e)) :
    ∃ data, Carries line data := by
  rw [read] at h
  split at h
  · cases h
  next payload hpayload =>
    split at h
    · cases h
    next data hdata => exact ⟨data, carries_iff.mpr ⟨payload, hpayload, hdata⟩⟩

/-- A line that carries bytes is read as an event exactly if they begin with those of the event. -/
theorem Carries.read_iff {line : String} {data : Bytes} (h : Carries line data) {e : Event} :
    read line = .ok (some e) ↔ e.fits = true ∧ e.encode <+: data := by
  rw [read_of_carries h, Except.map_eq_ok_iff, ← Event.decode_eq_ok_iff]
  constructor
  · rintro ⟨e', hdecode, he⟩
    cases he
    exact hdecode
  · intro hdecode
    exact ⟨e, hdecode, rfl⟩

/-- A line is read as an event exactly if it carries bytes that begin with those of the event. -/
theorem read_eq_ok_some_iff {line : String} {e : Event} :
    read line = .ok (some e) ↔ e.fits = true ∧ ∃ data, e.encode <+: data ∧ Carries line data := by
  constructor
  · intro h
    obtain ⟨data, hcarries⟩ := exists_carries_of_read h
    obtain ⟨hfits, hprefix⟩ := hcarries.read_iff.mp h
    exact ⟨hfits, data, hprefix, hcarries⟩
  · rintro ⟨hfits, data, hprefix, hcarries⟩
    exact hcarries.read_iff.mpr ⟨hfits, hprefix⟩

/-- A line is passed over exactly if it does not begin with the marker. -/
theorem read_eq_ok_none_iff {line : String} :
    read line = .ok none ↔ ¬marker.toList <+: line.toList := by
  rw [← payload?_eq_none_iff, read]
  cases payload? line with
  | none => exact iff_of_true rfl rfl
  | some payload =>
    refine iff_of_false (fun h => ?_) (fun h => nomatch h)
    dsimp only at h
    split at h
    · cases h
    · obtain ⟨e, -, he⟩ := Except.map_eq_ok_iff.mp h
      cases he

theorem carries_encodeText (data : Bytes) : Carries (marker ++ Base64.encodeText data) data :=
  ⟨"", "", fun _ h => absurd h List.not_mem_nil, fun _ h => absurd h List.not_mem_nil, by
    rw [String.append_empty, String.append_empty]⟩

theorem carries_line (e : Event) : Carries (Log.line e) e.encode := carries_encodeText e.encode

/-- Lines and events correspond. A line is read as an event exactly if it carries bytes that begin
with those of the event, as the line that is written for it does, and if the lengths in the event
fit their format. A line is passed over exactly if it does not begin with the marker. Every other
line is an error. -/
theorem read_corresponds :
    (∀ line e, read line = .ok (some e) ↔
      e.fits = true ∧ ∃ data, e.encode <+: data ∧ Carries line data) ∧
    (∀ e : Event, Carries (Log.line e) e.encode) ∧
    (∀ line, read line = .ok none ↔ ¬marker.toList <+: line.toList) ∧
    ∀ line, (∃ cause, read line = .error cause) ↔ marker.toList <+: line.toList ∧
      ∀ (e : Event) (data : Bytes), e.fits = true → e.encode <+: data → ¬Carries line data := by
  refine ⟨fun line e => read_eq_ok_some_iff, carries_line, fun line => read_eq_ok_none_iff,
    fun line => ?_⟩
  constructor
  · rintro ⟨cause, hcause⟩
    constructor
    · by_contra hmarker
      rw [read_eq_ok_none_iff.mpr hmarker] at hcause
      cases hcause
    · intro e data hfits hprefix hcarries
      rw [read_eq_ok_some_iff.mpr ⟨hfits, data, hprefix, hcarries⟩] at hcause
      cases hcause
  · rintro ⟨hmarker, hnone⟩
    cases hread : read line with
    | error cause => exact ⟨cause, rfl⟩
    | ok found =>
      cases found with
      | none => exact absurd hmarker (read_eq_ok_none_iff.mp hread)
      | some e =>
        obtain ⟨hfits, data, hprefix, hcarries⟩ := read_eq_ok_some_iff.mp hread
        exact absurd hcarries (hnone e data hfits hprefix)

theorem read_corresponds_sessionCompleted :
    read (marker ++ " " ++ Base64.encodeText
        ((Event.sessionCompleted ⟨1, 10, 500⟩).encode ++ [0]) ++ "\t") =
      .ok (some (.sessionCompleted ⟨1, 10, 500⟩)) :=
  (read_corresponds.1 _ _).mpr ⟨rfl, _, List.prefix_append _ _, " ", "\t",
    List.all_eq_true.mp rfl, List.all_eq_true.mp rfl, rfl⟩

end Log

end ComputeNet
