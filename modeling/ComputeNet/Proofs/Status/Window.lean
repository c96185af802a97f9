import ComputeNet.Ledger.Basic

/-!
# Where the bytes of a filter stand

The place after the bytes of a filter is cut off at the last place there is. That lets no more data
through: a window that is cut off is shorter than the bytes, so that it is never equal to them. A
filter accepts data exactly if its bytes stand in it, after as many others as the offset says
(`Filter.accepts_iff`).
-/

namespace ComputeNet.Filter

variable {f : Filter} {data : Bytes}

/-- A filter accepts data that has its bytes in their place. -/
theorem accepts_of_eq_append {front rest : Bytes} (hdata : data = front ++ (f.pattern ++ rest))
    (hfront : front.length = f.offset.toNat)
    (hlt : front.length + f.pattern.length < UInt64.size) : f.accepts data = true := by
  have hlimit : f.limit = front.length + f.pattern.length := by
    rw [limit, ← hfront]
    omega
  have hle : f.limit ≤ data.length := by
    rw [hlimit, hdata, List.length_append, List.length_append]
    omega
  have htake : data.take f.limit = front ++ f.pattern := by
    rw [hlimit, hdata, ← List.append_assoc, ← List.length_append, List.take_left]
  have hdrop : (data.take f.limit).drop f.offset.toNat = f.pattern := by
    rw [htake, ← hfront, List.drop_left]
  simp [accepts, hle, hdrop]

/-- The window of a filter that accepts data is not cut off. -/
theorem limit_of_accepts (h : f.accepts data = true) :
    f.limit = f.offset.toNat + f.pattern.length := by
  simp only [accepts, Bool.and_eq_true, decide_eq_true_eq] at h
  have hlength := congrArg List.length h.2
  rw [List.length_drop, List.length_take_of_le h.1] at hlength
  have hle : f.offset.toNat ≤ f.limit := by
    have hplace := f.offset.toNat_lt_size
    rw [limit]
    omega
  omega

theorem exists_eq_append_of_accepts (h : f.accepts data = true) :
    ∃ before after, data = before ++ (f.pattern ++ after) ∧ before.length = f.offset.toNat := by
  have hlimit := limit_of_accepts h
  simp only [accepts, Bool.and_eq_true, decide_eq_true_eq] at h
  obtain ⟨hle, hwindow⟩ := h
  have hfront : data.take f.limit = data.take f.offset.toNat ++ f.pattern := by
    rw [← List.take_append_drop f.offset.toNat (data.take f.limit), hwindow, List.take_take, hlimit,
      Nat.min_eq_left (Nat.le_add_right _ _)]
  refine ⟨data.take f.offset.toNat, data.drop f.limit, ?_, ?_⟩
  · rw [← List.append_assoc, ← hfront, List.take_append_drop]
  · apply List.length_take_of_le
    omega

/-- A filter accepts data exactly if its bytes stand there in their place and do not end beyond the
last place there is. -/
theorem accepts_iff : f.accepts data = true ↔
    f.offset.toNat + f.pattern.length < UInt64.size ∧
      ∃ before after, data = before ++ (f.pattern ++ after) ∧ before.length = f.offset.toNat := by
  constructor
  · intro h
    refine ⟨?_, exists_eq_append_of_accepts h⟩
    have hle : f.limit ≤ UInt64.size - 1 := Nat.min_le_right _ _
    have hpos : 0 < UInt64.size := by decide
    rw [← limit_of_accepts h]
    omega
  · rintro ⟨hlt, before, after, hdata, hbefore⟩
    rw [← hbefore] at hlt
    exact accepts_of_eq_append hdata hbefore hlt

/-- A filter without bytes accepts the data that reaches up to its place. -/
private theorem accepts_nil_iff {offset : UInt64} :
    accepts ⟨offset, []⟩ data = true ↔ offset.toNat ≤ data.length := by
  rw [accepts_iff]
  constructor
  · rintro ⟨-, before, after, rfl, hbefore⟩
    rw [List.length_append, hbefore]
    exact Nat.le_add_right _ _
  · intro hle
    refine ⟨offset.toNat_lt_size, data.take offset.toNat, data.drop offset.toNat, ?_,
      List.length_take_of_le hle⟩
    rw [List.nil_append, List.take_append_drop]

/-- A filter accepts data that a machine can hold exactly if its bytes stand there in their place.
If they would end beyond the last place there is, it accepts none; if there are none, it accepts the
data that reaches up to its place. -/
theorem accepts_iff_window (f : Filter) (data : Bytes) (hsize : data.length < UInt64.size) :
    (f.accepts data = true ↔ f.offset.toNat + f.pattern.length ≤ data.length ∧
      ∃ before after, data = before ++ (f.pattern ++ after) ∧ before.length = f.offset.toNat) ∧
    (UInt64.size ≤ f.offset.toNat + f.pattern.length → f.accepts data = false) ∧
    (f.pattern = [] → (f.accepts data = true ↔ f.offset.toNat ≤ data.length)) := by
  refine ⟨?_, ?_, ?_⟩
  · rw [accepts_iff]
    refine and_congr_left ?_
    rintro ⟨before, after, rfl, hbefore⟩
    rw [List.length_append, List.length_append, hbefore] at hsize ⊢
    exact iff_of_true (by omega) (by omega)
  · intro hbeyond
    apply Bool.eq_false_iff.mpr
    intro haccepts
    exact Nat.not_lt.mpr hbeyond (accepts_iff.mp haccepts).1
  · intro hnone
    obtain ⟨offset, pattern⟩ := f
    cases hnone
    exact accepts_nil_iff

/-- Bytes at the very end, none there and beyond, and one at the last place there is. -/
theorem accepts_iff_window_lastPlaces :
    accepts ⟨2, [7, 8]⟩ [0, 0, 7, 8] = true ∧ accepts ⟨4, []⟩ [0, 0, 7, 8] = true ∧
      ¬accepts ⟨5, []⟩ [0, 0, 7, 8] = true ∧
      accepts ⟨18446744073709551615, [8]⟩ [0, 0, 7, 8] = false := by
  have hsize : [0, 0, 7, 8].length < UInt64.size := by decide
  refine ⟨?_, ?_, ?_, ?_⟩
  · exact (accepts_iff_window _ _ hsize).1.mpr ⟨by decide, [0, 0], [], rfl, rfl⟩
  · exact ((accepts_iff_window _ _ hsize).2.2 rfl).mpr (by decide)
  · exact fun h => absurd (((accepts_iff_window _ _ hsize).2.2 rfl).mp h) (by decide)
  · exact (accepts_iff_window _ _ hsize).2.1 (by decide)

end ComputeNet.Filter
