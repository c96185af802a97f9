import ComputeNet.Proofs.Borsh.Lawful

/-!
# Cut encodings

A format is delimited when the encoding of a value, cut anywhere before its end, always ends the
reading for lack of bytes: whatever stands before the cut is read as in the whole, so that no other
fault is met and no value is found (`decode_take`). A value that is read part by part is delimited
if its parts are (`bind_take_append`).
-/

namespace ComputeNet.Borsh

variable {α β γ : Type}

/-- Reading a cut encoding runs out of bytes, wherever the cut is. -/
class Delimited (α : Type) [Borsh α] : Prop where
  decode_take : ∀ {a : α} {n : Nat},
    fits a = true → n < (encode a).length →
      (decode ((encode a).take n) : Except Error (α × Bytes)) = .error .endOfInput

export Delimited (decode_take)

/-- What begins by reading a front and goes on with the rest runs out of bytes if the cut is in the
front and reading it does, and also if the cut is in the rest and going on does. -/
theorem bind_take_append {read : Bytes → Except Error (α × Bytes)}
    {next : α × Bytes → Except Error γ} {a : α} {front rest : Bytes} {n : Nat}
    (hwhole : ∀ bs, read (front ++ bs) = .ok (a, bs))
    (hfront : ∀ m < front.length, read (front.take m) = .error .endOfInput)
    (hrest : ∀ m < rest.length, next (a, rest.take m) = .error .endOfInput)
    (hn : n < (front ++ rest).length) :
    read ((front ++ rest).take n) >>= next = .error .endOfInput := by
  rw [List.length_append] at hn
  by_cases hlt : n < front.length
  · rw [List.take_append_of_le_length (Nat.le_of_lt hlt), hfront n hlt]
    rfl
  · have hsplit : (front ++ rest).take n = front ++ rest.take (n - front.length) := by
      rw [List.take_append, List.take_of_length_le (Nat.le_of_not_lt hlt)]
    rw [hsplit, hwhole]
    exact hrest _ (by omega)

/-- Reading goes on after a part whose format is lawful and delimited. -/
theorem decode_bind_take_append [Borsh α] [Lawful α] [Delimited α]
    {next : α × Bytes → Except Error γ} {a : α} {rest : Bytes} {n : Nat} (hfits : fits a = true)
    (hrest : ∀ m < rest.length, next (a, rest.take m) = .error .endOfInput)
    (hn : n < (encode a ++ rest).length) :
    decode ((encode a ++ rest).take n) >>= next = .error .endOfInput :=
  bind_take_append (fun _ => decode_encode_append hfits) (fun _ => decode_take hfits) hrest hn

/-! ## Numbers and bytes -/

theorem take_of_length_lt {n : Nat} {bs : Bytes} (h : bs.length < n) :
    take n bs = .error .endOfInput := by
  rw [take, dif_neg (Nat.not_le.mpr h)]

private theorem takeNat_of_length_lt {n : Nat} {bs : Bytes} (h : bs.length < n) :
    takeNat n bs = .error .endOfInput := by
  rw [takeNat, take_of_length_lt h]
  rfl

theorem takeNat_take_littleEndian {n m v : Nat} (h : m < (littleEndian n v).length) :
    takeNat n ((littleEndian n v).take m) = .error .endOfInput := by
  apply takeNat_of_length_lt
  rw [length_littleEndian] at h
  simp only [List.length_take, length_littleEndian]
  omega

/-- Reading goes on after a number. -/
theorem takeNat_bind_take_append {next : Nat × Bytes → Except Error γ} {w v n : Nat} {rest : Bytes}
    (hlt : v < 256 ^ w) (hrest : ∀ m < rest.length, next (v, rest.take m) = .error .endOfInput)
    (hn : n < (littleEndian w v ++ rest).length) :
    takeNat w ((littleEndian w v ++ rest).take n) >>= next = .error .endOfInput :=
  bind_take_append (takeNat_append hlt) (fun _ => takeNat_take_littleEndian) hrest hn

/-- Of a single byte a cut leaves nothing. -/
theorem take_singleton_of_lt {b : UInt8} {n : Nat} (h : n < [b].length) : [b].take n = [] := by
  rw [List.length_singleton, Nat.lt_one_iff] at h
  rw [h, List.take_zero]

instance : Delimited UInt8 where
  decode_take _ hn := by
    change takeByte (List.take _ [_]) = _
    rw [take_singleton_of_lt hn]
    rfl

instance : Delimited UInt16 where
  decode_take _ hn := congrArg (· >>= _) (takeNat_take_littleEndian hn)

instance : Delimited UInt32 where
  decode_take _ hn := congrArg (· >>= _) (takeNat_take_littleEndian hn)

instance : Delimited UInt64 where
  decode_take _ hn := congrArg (· >>= _) (takeNat_take_littleEndian hn)

instance {n : Nat} : Delimited (FixedBytes n) where
  decode_take {a m} _ hm := by
    change m < a.toList.length at hm
    apply take_of_length_lt
    rw [a.length_toList] at hm
    simp only [encode, List.length_take, a.length_toList]
    omega

instance : Delimited Unit where
  decode_take _ hn := absurd hn (Nat.not_lt_zero _)

instance : Delimited Bool where
  decode_take _ hn := by
    simp only [decode, encode, take_singleton_of_lt hn]
    rfl

theorem Delimited.ofTags [Enumeration α] [DecidableEq α] : @Delimited α (Borsh.ofTags α) :=
  @Delimited.mk α (Borsh.ofTags α) fun {a n} _ hn => by
    simp only [decode, encode, take_singleton_of_lt hn]
    rfl

/-! ## Texts, options and lists -/

/-- The text is compared with its length before it is looked at, so that a cut inside of a
character is no other fault than a cut elsewhere. -/
instance : Delimited String where
  decode_take {s n} hfits hn := by
    refine takeNat_bind_take_append (of_decide_eq_true hfits) (fun m hm => ?_) hn
    have hshort : ((Utf8.encode s).take m).length < (Utf8.encode s).length := by
      rw [List.length_take]
      omega
    simp only [take_of_length_lt hshort]
    rfl

instance [Borsh α] [Delimited α] : Delimited (Option α) where
  decode_take {a n} hfits hn := by
    cases a with
    | none =>
      simp only [decode, encode, take_singleton_of_lt hn]
      rfl
    | some a =>
      cases n with
      | zero => rfl
      | succ n =>
        have hrest : decode ((encode a).take n) = .error .endOfInput :=
          decode_take hfits (Nat.lt_of_succ_lt_succ hn)
        change (do
          let (b, rest) ← decode ((encode a).take n)
          return (some b, rest) : Except Error (Option α × Bytes)) = _
        rw [hrest]
        rfl

/-- A list is cut in one of its elements. -/
private theorem decodeMany_take [Borsh α] [Lawful α] [Delimited α] {as : List α} {n : Nat}
    (hfits : as.all fits = true) (hn : n < (as.flatMap encode).length) :
    (decodeMany as.length ((as.flatMap encode).take n) : Except Error (List α × Bytes)) =
      .error .endOfInput := by
  induction as generalizing n with
  | nil => exact absurd hn (Nat.not_lt_zero n)
  | cons a as ih =>
    rw [List.all_cons, Bool.and_eq_true] at hfits
    rw [List.flatMap_cons] at hn ⊢
    rw [List.length_cons, decodeMany]
    refine decode_bind_take_append hfits.1 (fun m hm => ?_) hn
    simp only [ih hfits.2 hm]
    rfl

instance [Borsh α] [Lawful α] [Delimited α] : Delimited (List α) where
  decode_take {as n} hfits hn := by
    obtain ⟨hlt, hall⟩ := Bool.and_eq_true_iff.mp hfits
    exact takeNat_bind_take_append (of_decide_eq_true hlt) (fun m hm => decodeMany_take hall hm) hn

/-! ## Records -/

instance [Borsh α] [Lawful α] [Delimited α] [Borsh β] [Delimited β] : Delimited (α × β) where
  decode_take {p n} hfits hn := by
    obtain ⟨hfits₁, hfits₂⟩ := Bool.and_eq_true_iff.mp hfits
    refine decode_bind_take_append hfits₁ (fun m hm => ?_) hn
    simp only [decode_take hfits₂ hm]
    rfl

/-- A record is cut in one of its fields. -/
theorem Delimited.ofFields [Borsh β] [Delimited β] (fields : α → β) (make : β → α) :
    @Delimited α (Borsh.ofFields fields make) :=
  @Delimited.mk α (Borsh.ofFields fields make) fun {a n} hfits hn => by
    have hfields : decode ((encode (fields a)).take n) = .error .endOfInput := decode_take hfits hn
    simp only [decode, encode, hfields]
    rfl

end ComputeNet.Borsh
