import ComputeNet.History.Replay
import ComputeNet.Proofs.Event.Lines

/-!
# Logs, line by line

Each line of a log yields its events on its own: a line that cannot be read costs nothing but
itself. There are five kinds of lines that hold no event (`Log.Barren`), and these may be put in
anywhere (`Log.Padded`). The filter for a session takes out the events that name another session and
no others (`Log.pastEvents_linewise`).
-/

namespace ComputeNet

namespace Event

/-- The bytes of an event are those of its kind and of its payload. -/
theorem encode_prefix_append_iff {d : Discriminator} {rest : Bytes} {e : Event} :
    e.encode <+: d.toList ++ rest ↔ e.kind.discriminator = d ∧ e.body <+: rest := by
  have hlength : e.kind.discriminator.toList.length = d.toList.length := by
    rw [FixedBytes.length_toList, FixedBytes.length_toList]
  rw [encode]
  constructor
  · rintro ⟨after, hafter⟩
    rw [List.append_assoc] at hafter
    obtain ⟨hfront, hbody⟩ := List.append_inj hafter hlength
    exact ⟨FixedBytes.toList_injective hfront, after, hbody⟩
  · rintro ⟨rfl, hbody⟩
    exact (List.prefix_append_right_inj _).mpr hbody

/-- An event passes the filter for a session if it names that session or none. -/
private theorem passes_some (slot : UInt64) (e : Event) :
    e.passes (some slot) = e.sessionSlot?.all (· = slot) := by
  rw [passes.eq_def]
  cases e.sessionSlot? with
  | none => rfl
  | some own => exact decide_eq_decide.mpr eq_comm

private theorem passes_none (e : Event) : e.passes none = true := rfl

end Event

namespace Log

/-! ## Lines without events -/

/-- The line holds no event, for one of five reasons. -/
inductive Barren (line : String) : Prop
  /-- It does not begin with the marker. -/
  | unmarked (hmarker : ¬marker.toList <+: line.toList)
  /-- What follows the marker is not the base 64 of any bytes. -/
  | garbled (hmarker : marker.toList <+: line.toList) (hnone : ∀ data, ¬Carries line data)
  /-- The bytes have no room for a discriminator. -/
  | short {data : Bytes} (hcarries : Carries line data) (hlt : data.length < 8)
  /-- The discriminator is not that of any kind. -/
  | unknown {d : Discriminator} {rest : Bytes} (hcarries : Carries line (d.toList ++ rest))
      (hne : ∀ kind, EventKind.discriminator kind ≠ d)
  /-- What follows the discriminator does not begin with a payload of its kind. -/
  | malformed {kind : EventKind} {rest : Bytes}
      (hcarries : Carries line (kind.discriminator.toList ++ rest))
      (hnone : ∀ e : Event, e.kind = kind → e.fits = true → ¬e.body <+: rest)

/-- A line of one of the five kinds is not read as an event. -/
theorem Barren.read_ne {line : String} (h : Barren line) (e : Event) :
    read line ≠ .ok (some e) := by
  intro hread
  cases h with
  | unmarked hmarker => cases hread.symm.trans (read_eq_ok_none_iff.mpr hmarker)
  | garbled _ hnone =>
    obtain ⟨data, hcarries⟩ := exists_carries_of_read hread
    exact hnone data hcarries
  | short hcarries hlt =>
    have hle := (hcarries.read_iff.mp hread).2.length_le
    rw [Event.encode, List.length_append, FixedBytes.length_toList] at hle
    omega
  | unknown hcarries hne =>
    exact hne e.kind (Event.encode_prefix_append_iff.mp (hcarries.read_iff.mp hread).2).1
  | malformed hcarries hnone =>
    obtain ⟨hfits, hprefix⟩ := hcarries.read_iff.mp hread
    obtain ⟨hkind, hbody⟩ := Event.encode_prefix_append_iff.mp hprefix
    exact hnone e (EventKind.discriminator_injective hkind) hfits hbody

/-- A line with bytes that is not read as an event breaks off before the discriminator, at it or
after it. -/
theorem Carries.barren {line : String} {data : Bytes} (h : Carries line data)
    (hnone : ∀ e, read line ≠ .ok (some e)) : Barren line := by
  by_cases hlt : data.length < 8
  · exact .short h hlt
  · obtain ⟨d, rest, rfl⟩ : ∃ (d : Discriminator) (rest : Bytes), data = d.toList ++ rest :=
      ⟨FixedBytes.take 8 data (Nat.not_lt.mp hlt), data.drop 8, (List.take_append_drop 8 data).symm⟩
    by_cases hkind : ∃ kind, EventKind.discriminator kind = d
    · obtain ⟨kind, rfl⟩ := hkind
      refine .malformed h ?_
      rintro e rfl hfits hbody
      exact hnone e (h.read_iff.mpr ⟨hfits, Event.encode_prefix_append_iff.mpr ⟨rfl, hbody⟩⟩)
    · exact .unknown h (not_exists.mp hkind)

/-- The lines that are not read as events are those of the five kinds. -/
private theorem barren_iff {line : String} : Barren line ↔ ∀ e, read line ≠ .ok (some e) := by
  refine ⟨Barren.read_ne, fun hnone => ?_⟩
  by_cases hmarker : marker.toList <+: line.toList
  · by_cases hbytes : ∃ data, Carries line data
    · obtain ⟨data, hcarries⟩ := hbytes
      exact hcarries.barren hnone
    · exact .garbled hmarker (not_exists.mp hbytes)
  · exact .unmarked hmarker

theorem event?_eq_some_iff {line : String} {e : Event} :
    event? line = some e ↔ read line = .ok (some e) := by
  rw [event?]
  cases read line with
  | error cause => exact iff_of_false (fun h => nomatch h) (fun h => nomatch h)
  | ok found => exact ⟨congrArg Except.ok, Except.ok.inj⟩

private theorem Barren.event?_eq_none {line : String} (h : Barren line) : event? line = none :=
  Option.eq_none_iff_forall_ne_some.mpr fun e he => h.read_ne e (event?_eq_some_iff.mp he)

/-- The line that is written for an event holds that event. -/
private theorem event?_line {e : Event} (hfits : e.fits = true) : event? (Log.line e) = some e :=
  event?_eq_some_iff.mpr
    (read_eq_ok_some_iff.mpr ⟨hfits, e.encode, List.prefix_refl _, carries_line e⟩)

/-! ## Whole logs -/

/-- The second log is the first one with lines that hold no event put in, anywhere. -/
inductive Padded : List String → List String → Prop
  | nil : Padded [] []
  | keep (line : String) {lines padded : List String} (h : Padded lines padded) :
      Padded (line :: lines) (line :: padded)
  | insert {line : String} (hbarren : Barren line) {lines padded : List String}
      (h : Padded lines padded) : Padded lines (line :: padded)

private theorem Padded.filterMap_event? {lines padded : List String} (h : Padded lines padded) :
    padded.filterMap event? = lines.filterMap event? := by
  induction h with
  | nil => rfl
  | keep line _ ih => rw [List.filterMap_cons, List.filterMap_cons, ih]
  | insert hbarren _ ih => rw [List.filterMap_cons_none hbarren.event?_eq_none, ih]

private theorem filterMap_event?_map_line {es : List Event} (hfits : ∀ e ∈ es, e.fits = true) :
    (es.map Log.line).filterMap event? = es := by
  rw [List.filterMap_map]
  calc es.filterMap (event? ∘ Log.line)
    _ = es.filterMap some := List.filterMap_congr fun e he => by
      rw [Function.comp_apply, event?_line (hfits e he)]
    _ = es := List.filterMap_some

/-- The past events in the logs of a transaction of a given time, as far as they pass the filter for
a session. -/
def pastEvents (session : Option UInt64) (signature : Signature) (time : Stamp)
    (lines : List String) : List PastEvent :=
  (events session signature lines).map fun e => { e with time }

section pastEvents

variable {session : Option UInt64} {signature : Signature} {time : Stamp}

private theorem pastEvents_append (a b : List String) :
    pastEvents session signature time (a ++ b) =
      pastEvents session signature time a ++ pastEvents session signature time b := by
  rw [pastEvents, events, List.filterMap_append, List.filter_append, List.map_append,
    List.map_append]
  rfl

private theorem Padded.pastEvents_eq {lines padded : List String} (h : Padded lines padded) :
    pastEvents session signature time padded = pastEvents session signature time lines := by
  rw [pastEvents, events, h.filterMap_event?]
  rfl

theorem signature_of_mem_pastEvents {lines : List String} {x : PastEvent}
    (hx : x ∈ pastEvents session signature time lines) : x.signature = signature := by
  obtain ⟨logged, hlogged, rfl⟩ := List.mem_map.mp hx
  obtain ⟨event, -, rfl⟩ := List.mem_map.mp hlogged
  rfl

theorem time_of_mem_pastEvents {lines : List String} {x : PastEvent}
    (hx : x ∈ pastEvents session signature time lines) : x.time = time := by
  obtain ⟨logged, -, rfl⟩ := List.mem_map.mp hx
  rfl

theorem pastEvents_none (lines : List String) :
    pastEvents none signature time lines =
      (lines.filterMap event?).map fun event => { event, signature, time } := by
  rw [pastEvents, events, List.filter_eq_self.mpr fun e _ => e.passes_none, List.map_map]
  rfl

theorem pastEvents_some (slot : UInt64) (lines : List String) :
    pastEvents (some slot) signature time lines =
      (pastEvents none signature time lines).filter (·.event.sessionSlot?.all (· = slot)) := by
  have hpasses : Event.passes (some slot) = fun e => e.sessionSlot?.all (· = slot) :=
    funext (Event.passes_some slot)
  rw [pastEvents_none, List.filter_map, pastEvents, events, List.map_map, hpasses]
  rfl

private theorem pastEvents_map_line {es : List Event} (hfits : ∀ e ∈ es, e.fits = true) :
    pastEvents none signature time (es.map Log.line) =
      es.map fun event => { event, signature, time } := by
  rw [pastEvents_none, filterMap_event?_map_line hfits]

end pastEvents

/-- The events of a log are those of its lines, one line after the other. Lines that hold no event
may be put in anywhere. The filter for a session takes out just the events that name another one, so
that those that name none stay. The lines that are written for some events, whose lengths fit their
format, yield just these events. -/
theorem pastEvents_linewise (signature : Signature) (time : Stamp) :
    (∀ session a b, pastEvents session signature time (a ++ b) =
      pastEvents session signature time a ++ pastEvents session signature time b) ∧
    (∀ line, Barren line ↔ ∀ e, read line ≠ .ok (some e)) ∧
    (∀ session lines padded, Padded lines padded →
      pastEvents session signature time padded = pastEvents session signature time lines) ∧
    (∀ slot lines, pastEvents (some slot) signature time lines =
      (pastEvents none signature time lines).filter (·.event.sessionSlot?.all (· = slot))) ∧
    (∀ slot lines, ∀ x ∈ pastEvents none signature time lines, x.event.sessionSlot? = none →
      x ∈ pastEvents (some slot) signature time lines) ∧
    ∀ es : List Event, (∀ e ∈ es, e.fits = true) →
      pastEvents none signature time (es.map Log.line) =
        es.map fun event => { event, signature, time } := by
  refine ⟨?_, ?_, ?_, ?_, ?_, ?_⟩
  · intro session a b
    exact pastEvents_append a b
  · intro line
    exact barren_iff
  · intro session lines padded hpadded
    exact hpadded.pastEvents_eq
  · intro slot lines
    exact pastEvents_some slot lines
  · intro slot lines x hx hnone
    rw [pastEvents_some, List.mem_filter, hnone]
    exact ⟨hx, rfl⟩
  · intro es hfits
    exact pastEvents_map_line hfits

/-- A verdict on a node, within a session or outside any. -/
def verdict (slot : Option UInt64) : Event :=
  .nodeValidated ⟨.replicate 32 1, .replicate 32 2, slot, none⟩

/-- Three verdicts among lines that hold no event, one of each kind. -/
def mixedLog : List String :=
  ["Program log: Instruction: ValidateNode", line (verdict none), marker ++ "not base64!!",
    marker ++ Base64.encodeText [1, 2, 3], line (verdict (some 7)),
    marker ++ Base64.encodeText (List.replicate 40 9), line (verdict (some 8)),
    marker ++ Base64.encodeText (EventKind.sessionSet.discriminator.toList ++ [1, 1, 1, 1])]

private theorem padded_mixedLog :
    Padded ([verdict none, verdict (some 7), verdict (some 8)].map Log.line) mixedLog := by
  have hgarbled : ∀ data, ¬Carries (marker ++ "not base64!!") data := by
    intro data hcarries
    obtain ⟨payload, hpayload, hdata⟩ := carries_iff.mp hcarries
    cases hpayload
    cases hdata
  have hnines : Carries (marker ++ Base64.encodeText (List.replicate 40 9))
      ((FixedBytes.replicate 8 9).toList ++ List.replicate 32 9) := carries_encodeText _
  have hunknown (kind : EventKind) : kind.discriminator ≠ .replicate 8 9 := by
    cases kind <;> decide +kernel
  have hmalformed (e : Event) (hkind : e.kind = .sessionSet) (hfits : e.fits = true) :
      ¬e.body <+: [1, 1, 1, 1] := by
    intro hbody
    cases Event.decodeBody_eq_ok_iff.mpr ⟨hkind, hfits, hbody⟩
  exact .insert (.unmarked (by decide)) <| .keep _ <|
    .insert (.garbled ⟨_, rfl⟩ hgarbled) <|
    .insert (.short (carries_encodeText _) (by decide)) <| .keep _ <|
    .insert (.unknown hnines hunknown) <| .keep _ <|
    .insert (.malformed (carries_encodeText _) hmalformed) .nil

theorem pastEvents_linewise_mixedLog :
    pastEvents (some 8) (.replicate 64 3) ⟨1700000000000000000, false⟩ mixedLog =
      [{ event := verdict none, signature := .replicate 64 3,
         time := ⟨1700000000000000000, false⟩ },
       { event := verdict (some 8), signature := .replicate 64 3,
         time := ⟨1700000000000000000, false⟩ }] := by
  obtain ⟨-, -, hpadded, hsome, -, hlines⟩ :=
    pastEvents_linewise (.replicate 64 3) ⟨1700000000000000000, false⟩
  rw [hpadded _ _ _ padded_mixedLog, hsome, hlines _ (by decide)]
  rfl

end Log

/-- A history takes the past events in the logs of a transaction, as far as they concern a task. -/
theorem History.transactionEvents_eq_pastEvents {source : TransactionSource}
    {signature : Signature} {record : TransactionRecord} {lines : List String}
    (hrecord : source.transaction? signature = some record) (hfailure : record.failure = none)
    (hlines : record.logs = some lines) (scope : Scope) (task : Option UInt64) :
    transactionEvents source scope task signature =
      (Log.pastEvents scope.sessionFilter signature
        (.ofBlockTime (source.clock signature) record.blockTime) lines).filter
          (·.event.concernsTask task) := by
  rw [transactionEvents, hrecord]
  dsimp only
  rw [hfailure, hlines, Log.pastEvents, List.filter_map]
  rfl

end ComputeNet
