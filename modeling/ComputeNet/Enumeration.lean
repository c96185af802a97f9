/-!
# Enumerations

A type with finitely many members that have names and a fixed order. The position of a member is
its tag byte in encodings.
-/

namespace ComputeNet

/-- The members of a type in order, and their names. -/
class Enumeration (α : Type) where
  /-- The members, in the order of their tags. -/
  members : List α
  name : α → String

namespace Enumeration

variable {α : Type} [Enumeration α]

/-- The tag of a member: its position. -/
def tag [DecidableEq α] (a : α) : UInt8 := UInt8.ofNat ((members : List α).idxOf a)

def ofTag? (tag : UInt8) : Option α := (members : List α)[tag.toNat]?

def ofName? (s : String) : Option α := (members : List α).find? fun a => name a = s

end Enumeration

end ComputeNet
