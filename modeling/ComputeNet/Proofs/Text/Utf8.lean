import Mathlib.Data.List.Forall2
import ComputeNet.Text.Utf8

/-!
# UTF-8 in both directions

A lead byte and bytes in the ranges that it asks for are the encoding of the code point that they
stand for (`encodeChar_of_leads`), and every character is encoded so (`exists_leads`). Hence a byte
string is read as a string exactly if it is the encoding of that string (`decode_eq_ok_iff`).
-/

namespace ComputeNet

/-- What is made of a result comes from the result. -/
theorem Except.map_eq_ok_iff {ε α β : Type} {f : α → β} {x : Except ε α} {b : β} :
    f <$> x = .ok b ↔ ∃ a, x = .ok a ∧ f a = b := by
  cases x with
  | error e => exact iff_of_false (fun h => nomatch h) (fun ⟨_, h, _⟩ => nomatch h)
  | ok a => simp

/-- The byte that a number is in eight bits. -/
theorem ofNat_eq_of_mod_eq {n : Nat} {b : UInt8} (h : n % 256 = b.toNat) : UInt8.ofNat n = b := by
  apply UInt8.toNat.inj
  rw [UInt8.toNat_ofNat']
  exact h

namespace Utf8

open String (utf8EncodeChar)

/-- The ranges that a lead byte asks for, by its value. The second byte of four leads has a range of
its own, which keeps out what has a shorter encoding, surrogates, and what is beyond the last code
point. -/
inductive Leads : Nat → List ByteRange → Prop
  | one {lead : Nat} (hlt : lead < 0x80) : Leads lead []
  | two {lead : Nat} (hle : 0xC2 ≤ lead) (hlt : lead < 0xE0) : Leads lead [continuation]
  | threeLow : Leads 0xE0 [⟨0xA0, 0xBF⟩, continuation]
  | three {lead : Nat} (hle : 0xE0 < lead) (hlt : lead < 0xF0) (hne : lead ≠ 0xED) :
      Leads lead [continuation, continuation]
  | threeHigh : Leads 0xED [⟨0x80, 0x9F⟩, continuation]
  | fourLow : Leads 0xF0 [⟨0x90, 0xBF⟩, continuation, continuation]
  | four {lead : Nat} (hle : 0xF0 < lead) (hlt : lead < 0xF4) :
      Leads lead [continuation, continuation, continuation]
  | fourHigh : Leads 0xF4 [⟨0x80, 0x8F⟩, continuation, continuation]

theorem tails_eq_some_iff {lead : UInt8} {ranges : List ByteRange} :
    tails lead = some ranges ↔ Leads lead.toNat ranges := by
  simp only [tails, UInt8.lt_iff_toNat_lt, ← UInt8.toNat_inj, UInt8.reduceToNat]
  have hlead := lead.toNat_lt
  generalize lead.toNat = n at hlead ⊢
  constructor
  · intro h
    split at h
    next hlt => cases h; exact .one hlt
    split at h
    next => cases h
    split at h
    next hle hlt => cases h; exact .two (Nat.not_lt.mp hle) hlt
    split at h
    next heq => cases h; exact heq ▸ .threeLow
    split at h
    next heq => cases h; exact heq ▸ .threeHigh
    split at h
    next hle hne hne' hlt => cases h; exact .three (by omega) hlt hne'
    split at h
    next heq => cases h; exact heq ▸ .fourLow
    split at h
    next hle hne hlt => cases h; exact .four (by omega) hlt
    split at h
    next heq => cases h; exact heq ▸ .fourHigh
    next => cases h
  · intro h
    cases h with
    | one hlt => rw [if_pos hlt]
    | two => rw [if_neg, if_neg, if_pos] <;> omega
    | three => rw [if_neg, if_neg, if_neg, if_neg, if_neg, if_pos] <;> omega
    | four => rw [if_neg, if_neg, if_neg, if_neg, if_neg, if_neg, if_neg, if_pos] <;> omega
    | threeLow | threeHigh | fourLow | fourHigh => rfl

/-- The byte lies in the range. -/
def InRange (r : ByteRange) (b : UInt8) : Prop := r.contains b = true

theorem inRange_iff {first last b : UInt8} :
    InRange ⟨first, last⟩ b ↔ first.toNat ≤ b.toNat ∧ b.toNat ≤ last.toNat := by
  simp [InRange, ByteRange.contains, UInt8.le_iff_toNat_le]

theorem fit_eq_all_iff {matched : Nat} {ranges : List ByteRange} {bs : Bytes} :
    fit matched ranges bs = .all ↔ List.Forall₂ InRange ranges (bs.take ranges.length) := by
  induction ranges generalizing matched bs with
  | nil => simp [fit]
  | cons r ranges ih =>
    cases bs with
    | nil => simp [fit]
    | cons b bs =>
      rw [fit, List.length_cons, List.take_succ_cons, List.forall₂_cons, InRange]
      by_cases hb : r.contains b = true
      · rw [if_pos hb, ih, and_iff_right hb]
      · rw [if_neg hb]
        exact iff_of_false (fun h => nomatch h) fun h => hb h.1

/-! ## One character -/

theorem toNat_ofNat {n : Nat} (h : n < 0xD800 ∨ 0xDFFF < n ∧ n < 0x110000) :
    (Char.ofNat n).val.toNat = n := by
  have hvalid : n.isValidChar := h
  rw [Char.ofNat, dif_pos hvalid]
  rfl

section Bytes

variable {a b c d : UInt8} {n : Nat}

theorem encodeChar_one (ha : a.toNat < 0x80) : utf8EncodeChar (Char.ofNat a.toNat) = [a] := by
  have hn : (Char.ofNat a.toNat).val.toNat = a.toNat := toNat_ofNat (by omega)
  rw [utf8EncodeChar, hn, if_pos (by omega), UInt8.ofNat_toNat]

private theorem encodeChar_two (hn : n = (a.toNat - 0xC0) * 64 + (b.toNat - 0x80))
    (ha : 0xC2 ≤ a.toNat) (ha' : a.toNat < 0xE0) (hb : 0x80 ≤ b.toNat) (hb' : b.toNat ≤ 0xBF) :
    utf8EncodeChar (Char.ofNat n) = [a, b] := by
  rw [utf8EncodeChar, toNat_ofNat (by omega), if_neg (by omega), if_pos (by omega),
    ofNat_eq_of_mod_eq (b := a) (by omega), ofNat_eq_of_mod_eq (b := b) (by omega)]

private theorem encodeChar_three
    (hn : n = ((a.toNat - 0xE0) * 64 + (b.toNat - 0x80)) * 64 + (c.toNat - 0x80))
    (ha : 0xE0 ≤ a.toNat) (ha' : a.toNat < 0xF0) (hb : 0x80 ≤ b.toNat) (hb' : b.toNat ≤ 0xBF)
    (hc : 0x80 ≤ c.toNat) (hc' : c.toNat ≤ 0xBF) (hle : 0x800 ≤ n)
    (hchar : n < 0xD800 ∨ 0xDFFF < n) : utf8EncodeChar (Char.ofNat n) = [a, b, c] := by
  rw [utf8EncodeChar, toNat_ofNat (by omega), if_neg (by omega), if_neg (by omega),
    if_pos (by omega), ofNat_eq_of_mod_eq (b := a) (by omega),
    ofNat_eq_of_mod_eq (b := b) (by omega), ofNat_eq_of_mod_eq (b := c) (by omega)]

private theorem encodeChar_four
    (hn : n = (((a.toNat - 0xF0) * 64 + (b.toNat - 0x80)) * 64 + (c.toNat - 0x80)) * 64 +
      (d.toNat - 0x80))
    (ha : 0xF0 ≤ a.toNat) (ha' : a.toNat < 0xF5) (hb : 0x80 ≤ b.toNat) (hb' : b.toNat ≤ 0xBF)
    (hc : 0x80 ≤ c.toNat) (hc' : c.toNat ≤ 0xBF) (hd : 0x80 ≤ d.toNat) (hd' : d.toNat ≤ 0xBF)
    (hle : 0x10000 ≤ n) (hlt : n < 0x110000) : utf8EncodeChar (Char.ofNat n) = [a, b, c, d] := by
  rw [utf8EncodeChar, toNat_ofNat (by omega), if_neg (by omega), if_neg (by omega),
    if_neg (by omega), ofNat_eq_of_mod_eq (b := a) (by omega),
    ofNat_eq_of_mod_eq (b := b) (by omega), ofNat_eq_of_mod_eq (b := c) (by omega),
    ofNat_eq_of_mod_eq (b := d) (by omega)]

end Bytes

/-- A lead byte and the bytes that it asks for are the encoding of their code point. -/
theorem encodeChar_of_leads {lead : UInt8} {ranges : List ByteRange} {following : Bytes}
    (h : Leads lead.toNat ranges) (hfollowing : List.Forall₂ InRange ranges following) :
    utf8EncodeChar (Char.ofNat (codePoint lead following)) = lead :: following := by
  generalize hn : lead.toNat = n at h
  cases h with
  | one hlt =>
    cases hfollowing
    rw [← hn] at hlt
    exact encodeChar_one hlt
  | two =>
    rcases hfollowing with _ | ⟨hb, ⟨⟩⟩
    rw [continuation, inRange_iff] at hb
    exact encodeChar_two rfl (by omega) (by omega) hb.1 hb.2
  | threeLow | three | threeHigh =>
    rcases hfollowing with _ | ⟨hb, _ | ⟨hc, ⟨⟩⟩⟩
    simp only [continuation, inRange_iff, UInt8.reduceToNat] at hb hc
    apply encodeChar_three rfl <;> omega
  | fourLow | four | fourHigh =>
    rcases hfollowing with _ | ⟨hb, _ | ⟨hc, _ | ⟨hd, ⟨⟩⟩⟩⟩
    simp only [continuation, inRange_iff, UInt8.reduceToNat] at hb hc hd
    apply encodeChar_four rfl <;> omega

theorem inRange_ofNat_iff {first last : UInt8} {n : Nat} (hn : n < 256) :
    InRange ⟨first, last⟩ (UInt8.ofNat n) ↔ first.toNat ≤ n ∧ n ≤ last.toNat := by
  rw [inRange_iff, UInt8.toNat_ofNat_of_lt' hn]

/-- A continuation byte holds six bits. -/
theorem inRange_continuation (n : Nat) : InRange continuation (UInt8.ofNat (n % 64 + 128)) := by
  rw [continuation, inRange_ofNat_iff (by omega)]
  exact ⟨Nat.le_add_left .., by simp only [UInt8.reduceToNat]; omega⟩

/-- The second byte of three keeps out surrogates and what two bytes can hold. -/
private theorem exists_leads_three {n : Nat} (hle : 0x800 ≤ n) (hlt : n < 0x10000)
    (hchar : n < 0xD800 ∨ 0xDFFF < n) :
    ∃ ranges, Leads (n / 4096 % 16 + 224) ranges ∧ List.Forall₂ InRange ranges
      [UInt8.ofNat (n / 64 % 64 + 128), UInt8.ofNat (n % 64 + 128)] := by
  have hlast := inRange_continuation n
  by_cases hlow : n < 0x1000
  · rw [show n / 4096 % 16 + 224 = 0xE0 by omega]
    refine ⟨_, .threeLow, .cons ?_ (.cons hlast .nil)⟩
    rw [inRange_ofNat_iff (by omega)]
    simp only [UInt8.reduceToNat]
    omega
  by_cases hhigh : n / 4096 = 13
  · rw [show n / 4096 % 16 + 224 = 0xED by omega]
    refine ⟨_, .threeHigh, .cons ?_ (.cons hlast .nil)⟩
    rw [inRange_ofNat_iff (by omega)]
    simp only [UInt8.reduceToNat]
    omega
  · refine ⟨_, .three ?_ ?_ ?_, .cons (inRange_continuation _) (.cons hlast .nil)⟩ <;> omega

/-- The second byte of four keeps out what three bytes can hold and what is beyond the last code
point. -/
private theorem exists_leads_four {n : Nat} (hle : 0x10000 ≤ n) (hlt : n < 0x110000) :
    ∃ ranges, Leads (n / 262144 % 8 + 240) ranges ∧ List.Forall₂ InRange ranges
      [UInt8.ofNat (n / 4096 % 64 + 128), UInt8.ofNat (n / 64 % 64 + 128),
        UInt8.ofNat (n % 64 + 128)] := by
  have hlast := inRange_continuation n
  have hthird := inRange_continuation (n / 64)
  by_cases hlow : n < 0x40000
  · rw [show n / 262144 % 8 + 240 = 0xF0 by omega]
    refine ⟨_, .fourLow, .cons ?_ (.cons hthird (.cons hlast .nil))⟩
    rw [inRange_ofNat_iff (by omega)]
    simp only [UInt8.reduceToNat]
    omega
  by_cases hhigh : 0x100000 ≤ n
  · rw [show n / 262144 % 8 + 240 = 0xF4 by omega]
    refine ⟨_, .fourHigh, .cons ?_ (.cons hthird (.cons hlast .nil))⟩
    rw [inRange_ofNat_iff (by omega)]
    simp only [UInt8.reduceToNat]
    omega
  · refine ⟨_, .four ?_ ?_, .cons (inRange_continuation _) (.cons hthird (.cons hlast .nil))⟩
    all_goals omega

/-- The encoding of a character is a lead byte and the bytes that it asks for. -/
theorem exists_leads (c : Char) :
    ∃ lead ranges following, utf8EncodeChar c = lead :: following ∧ Leads lead.toNat ranges ∧
      List.Forall₂ InRange ranges following ∧ Char.ofNat (codePoint lead following) = c := by
  have hvalid : c.val.toNat < 0xD800 ∨ 0xDFFF < c.val.toNat ∧ c.val.toNat < 0x110000 := c.valid
  have hself {n : Nat} (hn : n = c.val.toNat) : Char.ofNat n = c := hn ▸ Char.ofNat_toNat c
  have hbyte {n : Nat} (hn : n < 256) : (UInt8.ofNat n).toNat = n := UInt8.toNat_ofNat_of_lt' hn
  rw [utf8EncodeChar]
  generalize c.val.toNat = n at hvalid hself ⊢
  split
  next hle =>
    refine ⟨_, [], [], rfl, ?_, .nil, hself ?_⟩
    · rw [hbyte (by omega)]
      exact .one (by omega)
    · simp only [codePoint, List.length_nil, List.foldl_nil]
      rw [hbyte] <;> omega
  split
  next hle hle' =>
    refine ⟨_, [continuation], _, rfl, ?_, .cons (inRange_continuation n) .nil, hself ?_⟩
    · rw [hbyte (by omega)]
      exact .two (by omega) (by omega)
    · simp only [codePoint, List.length_cons, List.length_nil, List.foldl_cons, List.foldl_nil]
      rw [hbyte, hbyte] <;> omega
  split
  next hle hle' hle'' =>
    obtain ⟨ranges, hleads, hranges⟩ := exists_leads_three (n := n) (by omega) (by omega) (by omega)
    refine ⟨_, ranges, _, rfl, ?_, hranges, hself ?_⟩
    · rwa [hbyte (by omega)]
    · simp only [codePoint, List.length_cons, List.length_nil, List.foldl_cons, List.foldl_nil]
      rw [hbyte, hbyte, hbyte] <;> omega
  next hle hle' hle'' =>
    obtain ⟨ranges, hleads, hranges⟩ := exists_leads_four (n := n) (by omega) (by omega)
    refine ⟨_, ranges, _, rfl, ?_, hranges, hself ?_⟩
    · rwa [hbyte (by omega)]
    · simp only [codePoint, List.length_cons, List.length_nil, List.foldl_cons, List.foldl_nil]
      rw [hbyte, hbyte, hbyte, hbyte] <;> omega

/-! ## Strings -/

/-- One character is read after the other. -/
theorem decodeFrom_cons_eq_ok_iff {position : Nat} {lead : UInt8} {bs : Bytes} {cs : List Char} :
    decodeFrom position (lead :: bs) = .ok cs ↔ ∃ ranges cs', Leads lead.toNat ranges ∧
      List.Forall₂ InRange ranges (bs.take ranges.length) ∧
      decodeFrom (position + 1 + ranges.length) (bs.drop ranges.length) = .ok cs' ∧
      cs = Char.ofNat (codePoint lead (bs.take ranges.length)) :: cs' := by
  rw [decodeFrom]
  cases htails : tails lead with
  | none =>
    refine iff_of_false (by rintro ⟨⟩) ?_
    rintro ⟨ranges, cs', hleads, -⟩
    rw [tails_eq_some_iff.mpr hleads] at htails
    cases htails
  | some ranges =>
    have hleads := tails_eq_some_iff.mp htails
    have hsame {ranges' : List ByteRange} (h : Leads lead.toNat ranges') : ranges' = ranges := by
      rw [← tails_eq_some_iff, htails] at h
      exact (Option.some.inj h).symm
    dsimp only
    constructor
    · intro h
      split at h
      next => cases h
      next => cases h
      next hfit =>
        obtain ⟨cs', hrest, rfl⟩ := Except.map_eq_ok_iff.mp h
        exact ⟨ranges, cs', hleads, fit_eq_all_iff.mp hfit, hrest, rfl⟩
    · rintro ⟨ranges', cs', hleads', hranges, hrest, rfl⟩
      obtain rfl := hsame hleads'
      rw [fit_eq_all_iff.mpr hranges, hrest]
      rfl

private theorem decodeFrom_eq_ok_iff {position : Nat} {bs : Bytes} {cs : List Char} :
    decodeFrom position bs = .ok cs ↔ bs = cs.flatMap utf8EncodeChar := by
  constructor
  · intro h
    induction cs generalizing position bs with
    | nil =>
      cases bs with
      | nil => rfl
      | cons lead bs =>
        obtain ⟨ranges, cs', -, -, -, hcs⟩ := decodeFrom_cons_eq_ok_iff.mp h
        cases hcs
    | cons c cs ih =>
      cases bs with
      | nil =>
        rw [decodeFrom] at h
        cases h
      | cons lead bs =>
        obtain ⟨ranges, cs', hleads, hranges, hrest, hcs⟩ := decodeFrom_cons_eq_ok_iff.mp h
        cases hcs
        rw [List.flatMap_cons, encodeChar_of_leads hleads hranges, ← ih hrest, List.cons_append,
          List.take_append_drop]
  · rintro rfl
    induction cs generalizing position with
    | nil => rw [List.flatMap_nil, decodeFrom]
    | cons c cs ih =>
      obtain ⟨lead, ranges, following, hc, hleads, hranges, hself⟩ := exists_leads c
      have hlength := hranges.length_eq
      rw [List.flatMap_cons, hc, List.cons_append, decodeFrom_cons_eq_ok_iff]
      refine ⟨ranges, cs, hleads, ?_⟩
      rw [hlength, List.take_left, List.drop_left, hself]
      exact ⟨hranges, ih, rfl⟩

/-- A byte string is read as a string exactly if it is the encoding of that string. -/
theorem decode_eq_ok_iff {bs : Bytes} {s : String} : decode bs = .ok s ↔ bs = encode s := by
  have hfrom : decodeFrom 0 bs = .ok s.toList ↔ bs = encode s := decodeFrom_eq_ok_iff
  rw [decode, ← hfrom]
  constructor
  · intro h
    obtain ⟨cs, hcs, rfl⟩ := Except.map_eq_ok_iff.mp h
    rwa [String.toList_ofList]
  · intro h
    rw [h]
    exact congrArg Except.ok String.ofList_toList

theorem encode_injective {s t : String} (h : encode s = encode t) : s = t := by
  have hs : decode (encode s) = .ok s := decode_eq_ok_iff.mpr rfl
  rw [h, decode_eq_ok_iff.mpr rfl] at hs
  exact (Except.ok.inj hs).symm

/-- Bytes below 128 are the encoding of the characters with these code points. -/
theorem encode_ofList_map {bs : Bytes} (h : ∀ b ∈ bs, b.toNat < 0x80) :
    encode (String.ofList (bs.map fun b => Char.ofNat b.toNat)) = bs := by
  rw [encode, String.toList_ofList]
  induction bs with
  | nil => rfl
  | cons b bs ih =>
    have hb := encodeChar_one (h b List.mem_cons_self)
    rw [List.map_cons, List.flatMap_cons, hb, ih fun b' hb' => h b' (List.mem_cons_of_mem b hb')]
    rfl

end Utf8

end ComputeNet
