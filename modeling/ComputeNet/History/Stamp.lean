/-!
# Times of events

An event of the past has the time of its block (`block_timestamp`). Where that is not known, or is
no time that the calendar can write, what a clock showed when the event was read stands in.
-/

namespace ComputeNet

structure Stamp where
  /-- Nanoseconds since 1970. -/
  nanoseconds : Int
  /-- The time is not that of the block, but what a clock showed. -/
  isReading : Bool
deriving DecidableEq, Repr

namespace Stamp

/-- The earliest second of the calendar. -/
def earliest : Int := -8334601228800

/-- The latest second of the calendar. -/
def latest : Int := 8210266876799

/-- The seconds since 1970 that have passed. -/
def seconds (t : Stamp) : Int := t.nanoseconds / 1000000000

/-- The time of a block that is given in seconds. `reading` is what the clock shows, in
nanoseconds. -/
def ofBlockTime (reading : Int) : Option Int → Stamp
  | none => ⟨reading, true⟩
  | some seconds =>
    if earliest ≤ seconds ∧ seconds ≤ latest then ⟨seconds * 1000000000, false⟩
    else ⟨reading, true⟩

end Stamp

end ComputeNet
