import ComputeNet.Proofs.Borsh.Exact
import ComputeNet.Proofs.Text.Utf8

/-!
# Lawful formats

A format is lawful when it is exact and its encodings are read back: from the front of a byte string
a value is read exactly if its lengths fit and its encoding stands there (`decode_eq_ok_iff`). The
formats of numbers, texts, options, lists and records are lawful if those of their parts are.
-/

namespace ComputeNet

theorem ofLittleEndian_littleEndian {n v : Nat} (h : v < 256 ^ n) :
    ofLittleEndian (littleEndian n v) = v := by
  induction n generalizing v with
  | zero =>
    rw [Nat.pow_zero, Nat.lt_one_iff] at h
    rw [h]
    rfl
  | succ n ih =>
    rw [Nat.pow_succ] at h
    have hrest : ofLittleEndian (littleEndian n (v / 256)) = v / 256 :=
      ih (Nat.div_lt_of_lt_mul (by rwa [Nat.mul_comm]))
    rw [littleEndian, ofLittleEndian, hrest, UInt8.toNat_ofNat']
    omega

/-- A step that follows another is taken with what the other gives. -/
theorem Except.bind_eq_ok_iff {ε α β : Type} {x : Except ε α} {f : α → Except ε β} {b : β} :
    x >>= f = .ok b ↔ ∃ a, x = .ok a ∧ f a = .ok b := by
  constructor
  · exact exists_of_bind_eq_ok
  · rintro ⟨a, rfl, h⟩
    exact h

/-- The members of an enumeration are all that there are, each once, and no more than a byte can
tell apart. -/
class Enumeration.Complete (α : Type) [Enumeration α] : Prop where
  nodup : (members : List α).Nodup
  mem_members : ∀ a : α, a ∈ (members : List α)
  length_le : (members : List α).length ≤ 256

namespace Enumeration

variable {α : Type} [Enumeration α] [DecidableEq α] [Complete α]

/-- A member is found under its own tag and no other. -/
theorem ofTag?_eq_some_iff {byte : UInt8} {a : α} : ofTag? byte = some a ↔ byte = tag a := by
  constructor
  · exact fun h => (tag_of_ofTag? Complete.nodup h).symm
  · rintro rfl
    have hlt : (members : List α).idxOf a < (members : List α).length :=
      List.idxOf_lt_length_of_mem (Complete.mem_members a)
    have hplace : (tag a).toNat = (members : List α).idxOf a :=
      UInt8.toNat_ofNat_of_lt' (Nat.lt_of_lt_of_le hlt Complete.length_le)
    rw [ofTag?, hplace, List.getElem?_eq_getElem hlt, List.getElem_idxOf]

theorem tag_injective {a b : α} (h : tag a = tag b) : a = b := by
  have ha : ofTag? (tag a) = some a := ofTag?_eq_some_iff.mpr rfl
  rw [h, ofTag?_eq_some_iff.mpr rfl] at ha
  exact (Option.some.inj ha).symm

end Enumeration

namespace Borsh

variable {α β : Type}

/-- An exact format whose encodings are read back. -/
class Lawful (α : Type) [Borsh α] : Prop extends Exact α where
  fits_of_decode : ∀ {bs : Bytes} {a : α} {rest : Bytes},
    decode bs = .ok (a, rest) → fits a = true
  decode_encode_append : ∀ {a : α} {rest : Bytes},
    fits a = true → decode (encode a ++ rest) = .ok (a, rest)

export Lawful (fits_of_decode decode_encode_append)

/-- What is read from the front of a byte string. -/
theorem decode_eq_ok_iff [Borsh α] [Lawful α] {bs rest : Bytes} {a : α} :
    decode bs = .ok (a, rest) ↔ fits a = true ∧ bs = encode a ++ rest := by
  constructor
  · intro h
    exact ⟨fits_of_decode h, eq_encode_append h⟩
  · rintro ⟨hfits, rfl⟩
    exact decode_encode_append hfits

/-- A format is lawful if it reads exactly what it writes. -/
theorem Lawful.of_iff [Borsh α] (h : ∀ {bs : Bytes} {a : α} {rest : Bytes},
    decode bs = .ok (a, rest) ↔ fits a = true ∧ bs = encode a ++ rest) : Lawful α where
  eq_encode_append hdecode := (h.mp hdecode).2
  fits_of_decode hdecode := (h.mp hdecode).1
  decode_encode_append hfits := h.mpr ⟨hfits, rfl⟩

/-- A format without lengths is lawful if it reads exactly what it writes. -/
theorem Lawful.of_plain [Borsh α] (hfits : ∀ a : α, fits a = true)
    (h : ∀ {bs : Bytes} {a : α} {rest : Bytes}, decode bs = .ok (a, rest) ↔ bs = encode a ++ rest) :
    Lawful α := .of_iff (h.trans (and_iff_right (hfits _)).symm)

/-! ## Numbers and bytes -/

theorem take_append {n : Nat} (front : FixedBytes n) (rest : Bytes) :
    take n (front.toList ++ rest) = .ok (front, rest) := by
  rw [take, dif_pos (front.le_length_append rest), front.take_append,
    List.drop_left' front.length_toList]

theorem takeNat_append {n v : Nat} (h : v < 256 ^ n) (rest : Bytes) :
    takeNat n (littleEndian n v ++ rest) = .ok (v, rest) := by
  have htake := take_append (FixedBytes.ofNat n v) rest
  rw [FixedBytes.ofNat] at htake
  rw [takeNat, htake]
  exact congrArg (fun number => Except.ok (number, rest)) (ofLittleEndian_littleEndian h)

/-- Numbers below a bound are read exactly from their bytes. -/
theorem takeNat_eq_ok_iff {n v : Nat} {bs rest : Bytes} :
    takeNat n bs = .ok (v, rest) ↔ v < 256 ^ n ∧ bs = littleEndian n v ++ rest := by
  constructor
  · exact eq_append_of_takeNat
  · rintro ⟨hlt, rfl⟩
    exact takeNat_append hlt rest

/-- A number type is read exactly if it holds just the numbers of so many bytes. -/
theorem takeNat_map_eq_ok_iff {n : Nat} (ofNat : Nat → α) (toNat : α → Nat)
    (hlt : ∀ a, toNat a < 256 ^ n) (hofNat : ∀ a, ofNat (toNat a) = a)
    (htoNat : ∀ v < 256 ^ n, toNat (ofNat v) = v) {bs rest : Bytes} {a : α} :
    (do let (v, rest) ← takeNat n bs; return (ofNat v, rest) : Except Error (α × Bytes)) =
      .ok (a, rest) ↔ bs = littleEndian n (toNat a) ++ rest := by
  constructor
  · intro h
    obtain ⟨⟨v, rest'⟩, hnumber, hrest⟩ := Except.exists_of_bind_eq_ok h
    cases hrest
    obtain ⟨hv, hbs⟩ := eq_append_of_takeNat hnumber
    rw [htoNat v hv]
    exact hbs
  · rintro rfl
    rw [takeNat_append (hlt a) rest]
    exact congrArg (fun b => Except.ok (b, rest)) (hofNat a)

instance : Lawful UInt16 := .of_plain (fun _ => rfl) <|
  takeNat_map_eq_ok_iff UInt16.ofNat UInt16.toNat UInt16.toNat_lt (fun _ => UInt16.ofNat_toNat)
    (fun _ => UInt16.toNat_ofNat_of_lt')

instance : Lawful UInt32 := .of_plain (fun _ => rfl) <|
  takeNat_map_eq_ok_iff UInt32.ofNat UInt32.toNat UInt32.toNat_lt (fun _ => UInt32.ofNat_toNat)
    (fun _ => UInt32.toNat_ofNat_of_lt')

instance : Lawful UInt64 := .of_plain (fun _ => rfl) <|
  takeNat_map_eq_ok_iff UInt64.ofNat UInt64.toNat UInt64.toNat_lt (fun _ => UInt64.ofNat_toNat)
    (fun _ => UInt64.toNat_ofNat_of_lt')

theorem take_eq_ok_iff {n : Nat} {bs rest : Bytes} {front : FixedBytes n} :
    take n bs = .ok (front, rest) ↔ bs = front.toList ++ rest := by
  constructor
  · exact eq_append_of_take
  · rintro rfl
    exact take_append front rest

instance {n : Nat} : Lawful (FixedBytes n) := .of_plain (fun _ => rfl) take_eq_ok_iff

theorem takeByte_eq_ok_iff {bs rest : Bytes} {b : UInt8} :
    takeByte bs = .ok (b, rest) ↔ bs = b :: rest := by
  cases bs with
  | nil => exact iff_of_false (fun h => nomatch h) (fun h => nomatch h)
  | cons b' bs => simp [takeByte]

instance : Lawful UInt8 := .of_plain (fun _ => rfl) takeByte_eq_ok_iff

instance : Lawful Unit := .of_plain (fun _ => rfl) <| by
  intro bs _ rest
  exact ⟨fun h => (Prod.mk.inj (Except.ok.inj h)).2, fun h => h ▸ rfl⟩

instance : Lawful Bool := .of_plain (fun _ => rfl) <| by
  intro bs a rest
  refine Except.bind_eq_ok_iff.trans ?_
  constructor
  · rintro ⟨⟨byte, rest'⟩, hbyte, h⟩
    dsimp only at h
    split at h
    next hzero => cases h; rw [takeByte_eq_ok_iff.mp hbyte, hzero]; rfl
    next =>
      split at h
      next hone => cases h; rw [takeByte_eq_ok_iff.mp hbyte, hone]; rfl
      next => cases h
  · rintro rfl
    exact ⟨_, rfl, by cases a <;> rfl⟩

/-- The members of a complete enumeration are told apart by their tags. -/
theorem Lawful.ofTags [Enumeration α] [DecidableEq α] [Enumeration.Complete α] :
    @Lawful α (Borsh.ofTags α) := by
  refine @Lawful.of_plain α (Borsh.ofTags α) (fun _ => rfl) fun {bs a rest} => ?_
  refine Except.bind_eq_ok_iff.trans ?_
  constructor
  · rintro ⟨⟨byte, rest'⟩, hbyte, h⟩
    dsimp only at h
    split at h
    next => cases h
    next b hb =>
      cases h
      rw [takeByte_eq_ok_iff.mp hbyte, Enumeration.ofTag?_eq_some_iff.mp hb]
      rfl
  · rintro rfl
    refine ⟨_, rfl, ?_⟩
    dsimp only
    rw [Enumeration.ofTag?_eq_some_iff.mpr rfl]
    rfl

/-! ## Texts, options and lists -/

instance : Lawful String := .of_iff <| by
  intro bs s rest
  refine Except.bind_eq_ok_iff.trans ?_
  constructor
  · rintro ⟨⟨length, rest₁⟩, hlength, h⟩
    obtain ⟨⟨text, rest₂⟩, htext, h⟩ := Except.bind_eq_ok_iff.mp h
    dsimp only at h htext
    split at h
    next => cases h
    next s' hs =>
      cases h
      have htoList := Utf8.decode_eq_ok_iff.mp hs
      have hcount : (Utf8.encode s).length = length := by rw [← htoList, text.length_toList]
      obtain ⟨hlt, rfl⟩ := takeNat_eq_ok_iff.mp hlength
      refine ⟨decide_eq_true (hcount ▸ hlt), ?_⟩
      rw [take_eq_ok_iff.mp htext, htoList, ← List.append_assoc, ← hcount]
      rfl
  · rintro ⟨hfits, rfl⟩
    have hlt : (Utf8.encode s).length < 256 ^ 4 := of_decide_eq_true hfits
    refine ⟨((Utf8.encode s).length, Utf8.encode s ++ rest), ?_, ?_⟩
    · exact takeNat_eq_ok_iff.mpr ⟨hlt, List.append_assoc ..⟩
    have htext := take_append ⟨Utf8.encode s, rfl⟩ rest
    refine Except.bind_eq_ok_iff.mpr ⟨_, htext, ?_⟩
    dsimp only
    rw [Utf8.decode_eq_ok_iff.mpr rfl]
    rfl

instance [Borsh α] [Lawful α] : Lawful (Option α) := .of_iff <| by
  intro bs a rest
  refine Except.bind_eq_ok_iff.trans ?_
  constructor
  · rintro ⟨⟨mark, rest'⟩, hmark, h⟩
    rw [takeByte_eq_ok_iff] at hmark
    dsimp only at h hmark
    split at h
    next hnone =>
      cases h
      rw [hmark, hnone]
      exact ⟨rfl, rfl⟩
    next =>
      split at h
      next hsome =>
        obtain ⟨⟨b, rest''⟩, hb, h⟩ := Except.bind_eq_ok_iff.mp h
        cases h
        obtain ⟨hfits, rfl⟩ := decode_eq_ok_iff.mp hb
        rw [hmark, hsome]
        exact ⟨hfits, rfl⟩
      next => cases h
  · rintro ⟨hfits, rfl⟩
    cases a with
    | none => exact ⟨_, rfl, rfl⟩
    | some a =>
      refine ⟨_, rfl, Except.bind_eq_ok_iff.mpr ⟨(a, rest), ?_, rfl⟩⟩
      exact decode_eq_ok_iff.mpr ⟨hfits, rfl⟩

/-- A list is read element by element. -/
theorem decodeMany_eq_ok_iff [Borsh α] [Lawful α] {n : Nat} {bs rest : Bytes} {as : List α} :
    decodeMany n bs = .ok (as, rest) ↔
      (as.length = n ∧ as.all fits = true) ∧ bs = as.flatMap encode ++ rest := by
  induction n generalizing bs as with
  | zero =>
    rw [decodeMany, List.length_eq_zero_iff]
    constructor
    · rintro ⟨⟩
      exact ⟨⟨rfl, rfl⟩, rfl⟩
    · rintro ⟨⟨rfl, -⟩, rfl⟩
      rfl
  | succ n ih =>
    rw [decodeMany]
    refine Except.bind_eq_ok_iff.trans ?_
    constructor
    · rintro ⟨⟨a, rest₁⟩, ha, h⟩
      obtain ⟨⟨as', rest₂⟩, has, h⟩ := Except.bind_eq_ok_iff.mp h
      cases h
      obtain ⟨hfits, rfl⟩ := decode_eq_ok_iff.mp ha
      obtain ⟨⟨rfl, hall⟩, rfl⟩ := ih.mp has
      refine ⟨⟨rfl, ?_⟩, ?_⟩
      · rw [List.all_cons, hfits, hall]
        rfl
      · rw [List.flatMap_cons, List.append_assoc]
    · rintro ⟨⟨hlength, hall⟩, rfl⟩
      cases as with
      | nil => cases hlength
      | cons a as =>
        rw [List.all_cons, Bool.and_eq_true] at hall
        refine ⟨(a, as.flatMap encode ++ rest), ?_, ?_⟩
        · exact decode_eq_ok_iff.mpr ⟨hall.1, by rw [List.flatMap_cons, List.append_assoc]⟩
        · refine Except.bind_eq_ok_iff.mpr ⟨(as, rest), ?_, rfl⟩
          exact ih.mpr ⟨⟨Nat.succ.inj hlength, hall.2⟩, rfl⟩

instance [Borsh α] [Lawful α] : Lawful (List α) := .of_iff <| by
  intro bs as rest
  refine Except.bind_eq_ok_iff.trans ?_
  constructor
  · rintro ⟨⟨length, rest'⟩, hlength, h⟩
    obtain ⟨hlt, rfl⟩ := takeNat_eq_ok_iff.mp hlength
    obtain ⟨⟨rfl, hall⟩, rfl⟩ := decodeMany_eq_ok_iff.mp h
    refine ⟨?_, (List.append_assoc ..).symm⟩
    exact Bool.and_eq_true_iff.mpr ⟨decide_eq_true hlt, hall⟩
  · rintro ⟨hfits, rfl⟩
    obtain ⟨hlt, hall⟩ := Bool.and_eq_true_iff.mp hfits
    refine ⟨(as.length, as.flatMap encode ++ rest), ?_, ?_⟩
    · exact takeNat_eq_ok_iff.mpr ⟨of_decide_eq_true hlt, List.append_assoc ..⟩
    · exact decodeMany_eq_ok_iff.mpr ⟨⟨rfl, hall⟩, rfl⟩

/-! ## Records -/

instance [Borsh α] [Lawful α] [Borsh β] [Lawful β] : Lawful (α × β) := .of_iff <| by
  intro bs p rest
  refine Except.bind_eq_ok_iff.trans ?_
  constructor
  · rintro ⟨⟨a, rest₁⟩, ha, h⟩
    obtain ⟨⟨b, rest₂⟩, hb, h⟩ := Except.bind_eq_ok_iff.mp h
    cases h
    obtain ⟨hfits, rfl⟩ := decode_eq_ok_iff.mp ha
    obtain ⟨hfits', rfl⟩ := decode_eq_ok_iff.mp hb
    exact ⟨Bool.and_eq_true_iff.mpr ⟨hfits, hfits'⟩, (List.append_assoc ..).symm⟩
  · rintro ⟨hfits, rfl⟩
    obtain ⟨hfits₁, hfits₂⟩ := Bool.and_eq_true_iff.mp hfits
    refine ⟨(p.1, encode p.2 ++ rest), ?_, ?_⟩
    · exact decode_eq_ok_iff.mpr ⟨hfits₁, List.append_assoc ..⟩
    · exact Except.bind_eq_ok_iff.mpr ⟨(p.2, rest), decode_eq_ok_iff.mpr ⟨hfits₂, rfl⟩, rfl⟩

/-- A record that is the same as its fields has a lawful format if they do. -/
theorem Lawful.ofFields [Borsh β] [Lawful β] (fields : α → β) (make : β → α)
    (hmake : ∀ a, make (fields a) = a) (hfields : ∀ b, fields (make b) = b) :
    @Lawful α (Borsh.ofFields fields make) := by
  refine @Lawful.of_iff α (Borsh.ofFields fields make) fun {bs a rest} => ?_
  refine Except.bind_eq_ok_iff.trans ?_
  constructor
  · rintro ⟨⟨b, rest'⟩, hb, h⟩
    cases h
    have hlawful := decode_eq_ok_iff.mp hb
    rw [← hfields b] at hlawful
    exact hlawful
  · rintro ⟨hfits, rfl⟩
    refine ⟨(fields a, rest), decode_eq_ok_iff.mpr ⟨hfits, rfl⟩, ?_⟩
    exact congrArg (fun a => Except.ok (a, rest)) (hmake a)

end Borsh

end ComputeNet
