import ComputeNet.Borsh.Basic
import ComputeNet.Error.Basic

/-!
# Accounts

The records that the program keeps in accounts. Account data is the discriminator of the record
type followed by the record; an account may be larger than its record, so that bytes after it do
not matter.
-/

namespace ComputeNet

/-- A type of records that are kept in accounts. -/
class Account (α : Type) extends Borsh α where
  name : String
  /-- What account data of the type begins with. -/
  discriminator : Discriminator := .ofName "account" name

namespace Account

variable {α : Type} [Account α]

def toData (a : α) : Bytes := (discriminator α).toList ++ Borsh.encode a

/-- The record in account data (`from_bytes`). -/
def ofData (data : Bytes) : Except ClientError α :=
  if data.length < 8 then .error (.accountTooShort data.length)
  else if data.take 8 ≠ (discriminator α).toList then .error (.invalidDiscriminator (name α))
  else match Borsh.decode (data.drop 8) with
    | .error cause => .error (.decode (name α) cause)
    | .ok (a, _) => .ok a

end Account

end ComputeNet
