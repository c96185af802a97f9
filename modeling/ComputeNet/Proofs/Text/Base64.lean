import ComputeNet.Proofs.Borsh.Exact
import ComputeNet.Proofs.Text.Utf8
import ComputeNet.Text.Base64

/-!
# Base 64 in both directions

A text of base 64 is full groups of four symbols and a last group that may be padded. `Groups`
relates the values of full groups to their bytes and `Ends` those of a last group. Both are related
in the same way by writing and by reading, so that a byte string is read as base 64 exactly if it
is what is written (`Base64.decode_eq_ok_iff`).
-/

namespace ComputeNet.Base64

/-! ## Symbols -/

theorem value?_symbol {v : Nat} (h : v < 64) : value? (symbol v) = some v := by
  have hall : ∀ v : Fin 64, value? (symbol v) = some v.val := by decide +kernel
  exact hall ⟨v, h⟩

theorem eq_symbol_of_value? {b : UInt8} {v : Nat} (h : value? b = some v) :
    v < 64 ∧ b = symbol v := by
  have hall : ∀ n : Fin 256, ∀ v ∈ value? (UInt8.ofNat n), v < 64 ∧ UInt8.ofNat n = symbol v := by
    decide +kernel
  have hb := hall ⟨b.toNat, b.toNat_lt⟩ v
  rw [UInt8.ofNat_toNat] at hb
  exact hb h

private theorem value?_pad : value? pad = none := by decide

private theorem symbol_ne_pad {v : Nat} (h : v < 64) : symbol v ≠ pad := by
  intro heq
  have hvalue := value?_symbol h
  rw [heq, value?_pad] at hvalue
  cases hvalue

/-- The values of symbols are read exactly. -/
theorem values_eq_ok_iff {position : Nat} {bs : Bytes} {vs : List Nat} :
    values position bs = .ok vs ↔ (∀ v ∈ vs, v < 64) ∧ bs = vs.map symbol := by
  constructor
  · intro h
    induction bs generalizing position vs with
    | nil =>
      cases h
      exact ⟨fun v hv => absurd hv List.not_mem_nil, rfl⟩
    | cons b bs ih =>
      rw [values] at h
      split at h
      next => cases h
      next v hv =>
        obtain ⟨vs, hvs, rfl⟩ := Except.map_eq_ok_iff.mp h
        obtain ⟨hlt, rfl⟩ := eq_symbol_of_value? hv
        obtain ⟨hall, rfl⟩ := ih hvs
        exact ⟨List.forall_mem_cons.mpr ⟨hlt, hall⟩, rfl⟩
  · rintro ⟨hall, rfl⟩
    induction vs generalizing position with
    | nil => rfl
    | cons v vs ih =>
      obtain ⟨hlt, hall⟩ := List.forall_mem_cons.mp hall
      rw [List.map_cons, values, value?_symbol hlt]
      exact Except.map_eq_ok_iff.mpr ⟨vs, ih hall, rfl⟩

/-! ## Full groups -/

/-- The four values of three bytes. -/
def sextets (a b c : UInt8) : List Nat :=
  [a.toNat / 4, a.toNat % 4 * 16 + b.toNat / 16, b.toNat % 16 * 4 + c.toNat / 64, c.toNat % 64]

theorem sextets_lt (a b c : UInt8) : ∀ v ∈ sextets a b c, v < 64 := by
  have ha := a.toNat_lt
  have hb := b.toNat_lt
  have hc := c.toNat_lt
  simp only [sextets, List.forall_mem_cons]
  exact ⟨by omega, by omega, by omega, by omega, fun v hv => absurd hv List.not_mem_nil⟩

/-- Any four values are those of three bytes. -/
theorem exists_sextets {a b c d : Nat} (ha : a < 64) (hb : b < 64) (hc : c < 64) (hd : d < 64) :
    ∃ x y z, sextets x y z = [a, b, c, d] := by
  refine ⟨UInt8.ofNat (a * 4 + b / 16), UInt8.ofNat (b % 16 * 16 + c / 4),
    UInt8.ofNat (c % 4 * 64 + d), ?_⟩
  have hbyte {n : Nat} (hn : n < 256) : (UInt8.ofNat n).toNat = n := UInt8.toNat_ofNat_of_lt' hn
  rw [sextets, hbyte (by omega), hbyte (by omega), hbyte (by omega)]
  simp only [List.cons.injEq, and_true]
  omega

theorem bytesOfGroups_sextets (a b c : UInt8) (vs : List Nat) :
    bytesOfGroups (sextets a b c ++ vs) = a :: b :: c :: bytesOfGroups vs := by
  have ha := a.toNat_lt
  have hb := b.toNat_lt
  have hc := c.toNat_lt
  simp only [sextets, List.cons_append, List.nil_append, bytesOfGroups]
  rw [ofNat_eq_of_mod_eq (b := a) (by omega), ofNat_eq_of_mod_eq (b := b) (by omega),
    ofNat_eq_of_mod_eq (b := c) (by omega)]

/-- The values of full groups, and their bytes. -/
inductive Groups : List Nat → Bytes → Prop
  | nil : Groups [] []
  | cons (a b c : UInt8) {vs : List Nat} {bs : Bytes} (rest : Groups vs bs) :
      Groups (sextets a b c ++ vs) (a :: b :: c :: bs)

namespace Groups

variable {vs : List Nat} {bs : Bytes}

theorem lt (h : Groups vs bs) : ∀ v ∈ vs, v < 64 := by
  induction h with
  | nil => exact fun v hv => absurd hv List.not_mem_nil
  | cons a b c rest ih => exact List.forall_mem_append.mpr ⟨sextets_lt a b c, ih⟩

private theorem four_dvd_length (h : Groups vs bs) : 4 ∣ vs.length := by
  induction h with
  | nil => exact Nat.dvd_zero 4
  | cons a b c rest ih =>
    rw [List.length_append]
    exact Nat.dvd_add (Nat.dvd_refl 4) ih

theorem encode_append (h : Groups vs bs) (last : Bytes) :
    encode (bs ++ last) = vs.map symbol ++ encode last := by
  induction h with
  | nil => rfl
  | cons a b c rest ih =>
    rw [List.map_append, List.append_assoc, ← ih]
    rfl

theorem bytesOfGroups_eq (h : Groups vs bs) : bytesOfGroups vs = bs := by
  induction h with
  | nil => rfl
  | cons a b c rest ih => rw [bytesOfGroups_sextets, ih]

end Groups

/-- Values of full groups have bytes. -/
private theorem exists_groups {n : Nat} {vs : List Nat} (hlength : vs.length = 4 * n)
    (hlt : ∀ v ∈ vs, v < 64) : ∃ bs, Groups vs bs := by
  induction n generalizing vs with
  | zero =>
    rw [List.eq_nil_of_length_eq_zero hlength]
    exact ⟨[], .nil⟩
  | succ n ih =>
    match vs, hlength with
    | [], h | [_], h | [_, _], h | [_, _, _], h =>
      simp only [List.length_cons, List.length_nil] at h
      omega
    | a :: b :: c :: d :: vs, h =>
      simp only [List.forall_mem_cons] at hlt
      obtain ⟨ha, hb, hc, hd, hlt⟩ := hlt
      simp only [List.length_cons] at h
      obtain ⟨bs, hbs⟩ := ih (by omega) hlt
      obtain ⟨x, y, z, hxyz⟩ := exists_sextets ha hb hc hd
      have hgroups := Groups.cons x y z hbs
      rw [hxyz] at hgroups
      exact ⟨_, hgroups⟩

/-! ## The last group -/

/-- The values of a last group, how many padding symbols follow, and its bytes. -/
inductive Ends : List Nat → Nat → Bytes → Prop
  | one (a : UInt8) : Ends [a.toNat / 4, a.toNat % 4 * 16] 2 [a]
  | two (a b : UInt8) :
      Ends [a.toNat / 4, a.toNat % 4 * 16 + b.toNat / 16, b.toNat % 16 * 4] 1 [a, b]
  | three (a b c : UInt8) : Ends (sextets a b c) 0 [a, b, c]

namespace Ends

variable {vs : List Nat} {padding : Nat} {last : Bytes}

theorem lt (h : Ends vs padding last) : ∀ v ∈ vs, v < 64 := by
  cases h with
  | one a =>
    have ha := a.toNat_lt
    simp only [List.forall_mem_cons]
    exact ⟨by omega, by omega, fun v hv => absurd hv List.not_mem_nil⟩
  | two a b =>
    have ha := a.toNat_lt
    have hb := b.toNat_lt
    simp only [List.forall_mem_cons]
    exact ⟨by omega, by omega, by omega, fun v hv => absurd hv List.not_mem_nil⟩
  | three a b c => exact sextets_lt a b c

private theorem length_add (h : Ends vs padding last) : vs.length + padding = 4 := by
  cases h <;> rfl

theorem encode_eq (h : Ends vs padding last) :
    encode last = vs.map symbol ++ List.replicate padding pad := by
  cases h <;> rfl

/-- The last group is finished with its bytes and no others. -/
private theorem finish_eq (h : Ends vs padding last) (start : Nat) (group : Bytes) :
    finish start group (vs, padding) = .ok last := by
  cases h with
  | one a =>
    have ha := a.toNat_lt
    rw [finish, if_neg (by omega), if_neg (by omega), ofNat_eq_of_mod_eq (b := a) (by omega)]
  | two a b =>
    have ha := a.toNat_lt
    have hb := b.toNat_lt
    rw [finish, if_neg (by omega), if_neg (by omega), ofNat_eq_of_mod_eq (b := a) (by omega),
      ofNat_eq_of_mod_eq (b := b) (by omega)]
  | three a b c =>
    exact congrArg Except.ok (bytesOfGroups_sextets a b c [])

/-- Two values are a last group if they end in four bits that are zero. -/
private theorem of_two {v w : Nat} (hv : v < 64) (hw : w < 64) (hbits : w % 16 = 0) :
    Ends [v, w] 2 [UInt8.ofNat (v * 4 + w / 16)] := by
  have hfirst : (UInt8.ofNat (v * 4 + w / 16)).toNat = v * 4 + w / 16 :=
    UInt8.toNat_ofNat_of_lt' (show v * 4 + w / 16 < 256 by omega)
  have hend := one (UInt8.ofNat (v * 4 + w / 16))
  rwa [hfirst, show (v * 4 + w / 16) / 4 = v by omega,
    show (v * 4 + w / 16) % 4 * 16 = w by omega] at hend

/-- Three values are a last group if they end in two bits that are zero. -/
private theorem of_three {v w x : Nat} (hv : v < 64) (hw : w < 64) (hx : x < 64)
    (hbits : x % 4 = 0) :
    Ends [v, w, x] 1 [UInt8.ofNat (v * 4 + w / 16), UInt8.ofNat (w * 16 + x / 4)] := by
  have hfirst : (UInt8.ofNat (v * 4 + w / 16)).toNat = v * 4 + w / 16 :=
    UInt8.toNat_ofNat_of_lt' (show v * 4 + w / 16 < 256 by omega)
  have hsecond : (UInt8.ofNat (w * 16 + x / 4)).toNat = w % 16 * 16 + x / 4 := by
    rw [UInt8.toNat_ofNat']
    omega
  have hend := two (UInt8.ofNat (v * 4 + w / 16)) (UInt8.ofNat (w * 16 + x / 4))
  rwa [hfirst, hsecond, show (v * 4 + w / 16) / 4 = v by omega,
    show (v * 4 + w / 16) % 4 * 16 + (w % 16 * 16 + x / 4) / 16 = w by omega,
    show (w % 16 * 16 + x / 4) % 16 * 4 = x by omega] at hend

end Ends

/-- Only values whose padding is right and whose last bits are zero are finished. -/
private theorem ends_of_finish {start : Nat} {group : Bytes} {vs : List Nat} {padding : Nat}
    {last : Bytes} (hlt : ∀ v ∈ vs, v < 64) (hle : vs.length + padding ≤ 4)
    (h : finish start group (vs, padding) = .ok last) : Ends vs padding last := by
  match vs with
  | [] => cases h
  | [_] => cases h
  | [a, b] =>
    simp only [List.forall_mem_cons] at hlt
    obtain ⟨ha, hb, -⟩ := hlt
    rw [finish] at h
    split at h
    · cases h
    next hpadding =>
      split at h
      · cases h
      next hbits =>
        cases h
        obtain rfl := Decidable.not_not.mp hpadding
        exact .of_two ha hb (by omega)
  | [a, b, c] =>
    simp only [List.forall_mem_cons] at hlt
    obtain ⟨ha, hb, hc, -⟩ := hlt
    rw [finish] at h
    split at h
    · cases h
    next hpadding =>
      split at h
      · cases h
      next hbits =>
        cases h
        obtain rfl := Decidable.not_not.mp hpadding
        exact .of_three ha hb hc (by omega)
  | [a, b, c, d] =>
    simp only [List.forall_mem_cons] at hlt
    obtain ⟨ha, hb, hc, hd, -⟩ := hlt
    obtain ⟨x, y, z, hxyz⟩ := exists_sextets ha hb hc hd
    have hbytes := bytesOfGroups_sextets x y z []
    rw [List.append_nil, hxyz] at hbytes
    rw [finish, hbytes] at h
    cases h
    obtain rfl : padding = 0 := by
      simp only [List.length_cons, List.length_nil] at hle
      omega
    exact hxyz ▸ Ends.three x y z
  | _ :: _ :: _ :: _ :: _ :: vs => cases h

/-- Nothing but padding follows padding. -/
theorem lastGroup_some_eq_ok_iff {start first position : Nat} {read : List Nat} {bs : Bytes}
    {group : List Nat × Nat} (hposition : start + 2 ≤ position) :
    lastGroup start read (some first) position bs = .ok group ↔
      (∀ b ∈ bs, b = pad) ∧ group = (read.reverse, position + bs.length - first) := by
  induction bs generalizing position with
  | nil =>
    rw [lastGroup]
    constructor
    · rintro ⟨⟩
      exact ⟨fun b hb => absurd hb List.not_mem_nil, rfl⟩
    · rintro ⟨-, rfl⟩
      rfl
  | cons b bs ih =>
    rw [lastGroup, List.forall_mem_cons]
    by_cases hb : b = pad
    · have hcount : position + 1 + bs.length = position + (bs.length + 1) := by omega
      rw [if_pos hb, if_neg (Nat.not_lt.mpr hposition), Option.getD_some,
        ih (show start + 2 ≤ position + 1 by omega), and_iff_right hb, List.length_cons, hcount]
    · rw [if_neg hb]
      exact iff_of_false (fun h => nomatch h) fun h => hb h.1.1

/-- The last group is symbols and then padding, which is not among the first two. -/
theorem lastGroup_none_eq_ok_iff {start position : Nat} {read vs : List Nat} {padding : Nat}
    {bs : Bytes} :
    lastGroup start read none position bs = .ok (vs, padding) ↔
      ∃ more, vs = read.reverse ++ more ∧ (∀ v ∈ more, v < 64) ∧
        bs = more.map symbol ++ List.replicate padding pad ∧
        (padding = 0 ∨ start + 2 ≤ position + more.length) := by
  constructor
  · intro h
    induction bs generalizing position read with
    | nil =>
      cases h
      exact ⟨[], (List.append_nil _).symm, fun v hv => absurd hv List.not_mem_nil, rfl, .inl rfl⟩
    | cons b bs ih =>
      rw [lastGroup] at h
      by_cases hb : b = pad
      · rw [if_pos hb] at h
        split at h
        · cases h
        next hposition =>
          obtain ⟨hall, hgroup⟩ := (lastGroup_some_eq_ok_iff (by omega)).mp h
          cases hgroup
          refine ⟨[], (List.append_nil _).symm, fun v hv => absurd hv List.not_mem_nil, ?_,
            .inr (Nat.not_lt.mp hposition)⟩
          rw [Option.getD_none, Nat.add_assoc, Nat.add_sub_cancel_left, List.map_nil,
            List.nil_append, Nat.add_comm, List.replicate_succ, hb, ← List.eq_replicate_of_mem hall]
      · rw [if_neg hb] at h
        split at h
        · cases h
        next v hv =>
          obtain ⟨hlt, rfl⟩ := eq_symbol_of_value? hv
          obtain ⟨more, rfl, hmore, rfl, hpadding⟩ := ih h
          refine ⟨v :: more, ?_, List.forall_mem_cons.mpr ⟨hlt, hmore⟩, rfl, ?_⟩
          · rw [List.reverse_cons, List.append_assoc]
            rfl
          · rw [List.length_cons]
            omega
  · rintro ⟨more, rfl, hmore, rfl, hpadding⟩
    induction more generalizing position read with
    | nil =>
      cases padding with
      | zero => rw [List.append_nil]; rfl
      | succ n =>
        have hposition : start + 2 ≤ position := hpadding.resolve_left (Nat.succ_ne_zero n)
        rw [List.map_nil, List.nil_append, List.replicate_succ, lastGroup, if_pos rfl,
          if_neg (Nat.not_lt.mpr hposition), lastGroup_some_eq_ok_iff (by omega), Option.getD_none,
          List.length_replicate, List.append_nil, Nat.add_assoc, Nat.add_sub_cancel_left,
          Nat.add_comm]
        exact ⟨fun b hb => List.eq_of_mem_replicate hb, rfl⟩
    | cons v more ih =>
      obtain ⟨hlt, hmore⟩ := List.forall_mem_cons.mp hmore
      rw [List.length_cons] at hpadding
      rw [List.map_cons, List.cons_append, lastGroup, if_neg (symbol_ne_pad hlt),
        value?_symbol hlt, List.append_cons, ← List.reverse_cons]
      exact ih hmore (by omega)

/-! ## Whole texts -/

/-- A byte string that is not empty is full groups and a last one. -/
private theorem exists_groups_ends {bs : Bytes} (h : bs ≠ []) :
    ∃ front last vs ws padding, bs = front ++ last ∧ Groups vs front ∧ Ends ws padding last := by
  induction bs using encode.induct with
  | case1 a b c rest ih =>
    by_cases hrest : rest = []
    · exact ⟨[], [a, b, c], [], _, 0, by rw [hrest]; rfl, .nil, .three a b c⟩
    · obtain ⟨front, last, vs, ws, padding, rfl, hgroups, hends⟩ := ih hrest
      exact ⟨a :: b :: c :: front, last, _, ws, padding, rfl, hgroups.cons a b c, hends⟩
  | case2 a b => exact ⟨[], [a, b], [], _, 1, rfl, .nil, .two a b⟩
  | case3 a => exact ⟨[], [a], [], _, 2, rfl, .nil, .one a⟩
  | case4 => exact absurd rfl h

/-- A text that is read is full groups and a last one. -/
private theorem exists_of_decode {bs data : Bytes} {start : Nat} (hne : bs ≠ [])
    (hstart : start = (bs.length - 1) / 4 * 4) (h : decode bs = .ok data) :
    ∃ vs ws padding last, values 0 (bs.take start) = .ok vs ∧
      lastGroup start [] none start (bs.drop start) = .ok (ws, padding) ∧
      finish start (bs.drop start) (ws, padding) = .ok last ∧ data = bytesOfGroups vs ++ last := by
  rw [decode, List.getLast?_eq_some_getLast hne] at h
  dsimp only at h
  split at h
  · cases h
  next =>
    obtain ⟨vs, hvs, h⟩ := Except.exists_of_bind_eq_ok h
    obtain ⟨⟨ws, padding⟩, hws, h⟩ := Except.exists_of_bind_eq_ok h
    obtain ⟨last, hlast, h⟩ := Except.exists_of_bind_eq_ok h
    cases h
    rw [← hstart] at hvs hws hlast
    exact ⟨vs, ws, padding, last, hvs, hws, hlast, rfl⟩

/-- Full groups and a last one are read. -/
theorem decode_append {vs ws : List Nat} {padding : Nat} {front last : Bytes}
    (hgroups : Groups vs front) (hends : Ends ws padding last) :
    decode (vs.map symbol ++ (ws.map symbol ++ List.replicate padding pad)) =
      .ok (front ++ last) := by
  have hlength : (vs.map symbol ++ (ws.map symbol ++ List.replicate padding pad)).length =
      vs.length + 4 := by
    rw [List.length_append, List.length_append, List.length_map, List.length_map,
      List.length_replicate, hends.length_add]
  have hdvd := hgroups.four_dvd_length
  have hne : vs.map symbol ++ (ws.map symbol ++ List.replicate padding pad) ≠ [] :=
    List.ne_nil_of_length_pos (hlength ▸ Nat.succ_pos _)
  have hmod : ¬(vs.length + 4) % 4 = 1 := by omega
  have hstart : (vs.length + 4 - 1) / 4 * 4 = (vs.map symbol).length := by
    rw [List.length_map]
    omega
  have hvs : values 0 (vs.map symbol) = .ok vs := values_eq_ok_iff.mpr ⟨hgroups.lt, rfl⟩
  have hws : lastGroup (vs.map symbol).length [] none (vs.map symbol).length
      (ws.map symbol ++ List.replicate padding pad) = .ok (ws, padding) := by
    refine lastGroup_none_eq_ok_iff.mpr ⟨ws, rfl, hends.lt, rfl, ?_⟩
    cases hends <;> simp
  rw [decode, List.getLast?_eq_some_getLast hne]
  dsimp only
  rw [hlength, if_neg (fun h => hmod h.1), hstart, List.take_left, List.drop_left, hvs, hws,
    ← hgroups.bytesOfGroups_eq]
  exact congrArg (fun last => last >>= fun last => .ok (bytesOfGroups vs ++ last))
    (hends.finish_eq _ _)

/-- A byte string is read as base 64 exactly if it is what is written. -/
theorem decode_eq_ok_iff {bs data : Bytes} : decode bs = .ok data ↔ bs = encode data := by
  constructor
  · intro h
    by_cases hne : bs = []
    · subst hne
      cases h
      rfl
    obtain ⟨vs, ws, padding, last, hvs, hws, hlast, rfl⟩ := exists_of_decode hne rfl h
    have hpos := List.length_pos_of_ne_nil hne
    generalize hstart : (bs.length - 1) / 4 * 4 = start at hvs hws hlast
    obtain ⟨hlt, hfront⟩ := values_eq_ok_iff.mp hvs
    obtain ⟨ws, rfl, hlt', hgroup, -⟩ := lastGroup_none_eq_ok_iff.mp hws
    have hlength : vs.length = start := by
      rw [← List.length_map (f := symbol), ← hfront, List.length_take]
      omega
    have hcount : ws.length + padding = bs.length - start := by
      rw [← List.length_drop, hgroup, List.length_append, List.length_map, List.length_replicate]
    obtain ⟨front, hgroups⟩ := exists_groups (n := (bs.length - 1) / 4) (by omega) hlt
    have hends := ends_of_finish hlt' (by omega) hlast
    rw [hgroups.bytesOfGroups_eq, hgroups.encode_append, hends.encode_eq, ← hfront, ← hgroup,
      List.take_append_drop]
  · rintro rfl
    by_cases hne : data = []
    · rw [hne]
      rfl
    obtain ⟨front, last, vs, ws, padding, rfl, hgroups, hends⟩ := exists_groups_ends hne
    rw [hgroups.encode_append, hends.encode_eq]
    exact decode_append hgroups hends

/-! ## Texts as characters -/

theorem symbol_range (v : Nat) : 0x2B ≤ (symbol v).toNat ∧ (symbol v).toNat < 0x80 := by
  rw [symbol]
  split
  · rw [UInt8.toNat_ofNat']
    omega
  split
  · rw [UInt8.toNat_ofNat']
    omega
  split
  · rw [UInt8.toNat_ofNat']
    omega
  split <;> decide

theorem encode_range {bs : Bytes} : ∀ b ∈ encode bs, 0x2B ≤ b.toNat ∧ b.toNat < 0x80 := by
  have hpad : 0x2B ≤ pad.toNat ∧ pad.toNat < 0x80 := by decide
  induction bs using encode.induct with
  | case1 a b c rest ih =>
    simpa only [encode, List.forall_mem_cons, symbol_range, true_and] using ih
  | case2 a b => simp [encode, symbol_range, hpad]
  | case3 a => simp [encode, symbol_range, hpad]
  | case4 => exact fun b hb => absurd hb List.not_mem_nil

theorem utf8_encodeText (bs : Bytes) : Utf8.encode (encodeText bs) = encode bs :=
  Utf8.encode_ofList_map fun b hb => (encode_range b hb).2

end ComputeNet.Base64
