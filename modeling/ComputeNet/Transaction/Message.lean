import ComputeNet.Instruction.Basic

/-!
# Transaction messages

Before it is signed, a transaction is compiled to a message: a table of the addresses that occur,
each with the strongest rights that any use asks for, and instructions that refer to the table by
position. The payer comes first, then the other writable signers, the read-only signers, the other
writable accounts and the rest; within each group addresses ascend. A message is written with
counts of one byte and lengths of sixteen bits; one that needs more cannot be written.
-/

namespace ComputeNet

/-- An instruction whose addresses are positions in a table. A position is a byte. -/
structure CompiledInstruction where
  program : UInt8
  accounts : List UInt8
  data : Bytes
deriving DecidableEq

/-- What the signers of a transaction sign. -/
structure Message where
  /-- How many addresses at the front of the table sign. -/
  requiredSigners : Nat
  /-- How many of those are only read. -/
  readonlySigners : Nat
  /-- How many of the others, at the end of the table, are only read. -/
  readonlyOthers : Nat
  addresses : List Address
  blockhash : Digest
  instructions : List CompiledInstruction
deriving DecidableEq

namespace Message

/-- Every use of an address in the instructions. A program is used without any right. -/
def uses (instructions : List Instruction) : List AccountRef :=
  instructions.flatMap fun i => .readonly i.program :: i.accounts

/-- Adds a use to a table that ascends by address: rights at one address add up. -/
def addUse (use : AccountRef) : List AccountRef → List AccountRef
  | [] => [use]
  | entry :: entries =>
    if use.address = entry.address then
      ⟨entry.address, entry.isSigner || use.isSigner, entry.isWritable || use.isWritable⟩ ::
        entries
    else if use.address ≤ entry.address then use :: entry :: entries
    else entry :: addUse use entries

/-- The addresses in use and their rights, ascending by address. -/
def rights (instructions : List Instruction) : List AccountRef :=
  (uses instructions).foldl (fun table use => addUse use table) []

/-- The addresses of a table with given rights. -/
def having (table : List AccountRef) (isSigner isWritable : Bool) : List Address :=
  (table.filter fun e => e.isSigner = isSigner ∧ e.isWritable = isWritable).map (·.address)

/-- The message of a payer's instructions. -/
def compile (payer : Address) (blockhash : Digest) (instructions : List Instruction) : Message :=
  let others := (rights instructions).filter (·.address ≠ payer)
  let writableSigners := payer :: having others true true
  let readonlySigners := having others true false
  let writableOthers := having others false true
  let readonlyOthers := having others false false
  let addresses := writableSigners ++ readonlySigners ++ writableOthers ++ readonlyOthers
  { requiredSigners := writableSigners.length + readonlySigners.length
    readonlySigners := readonlySigners.length
    readonlyOthers := readonlyOthers.length
    addresses
    blockhash
    instructions := instructions.map fun i =>
      { program := UInt8.ofNat (addresses.idxOf i.program)
        accounts := i.accounts.map fun a => UInt8.ofNat (addresses.idxOf a.address)
        data := i.data } }

/-- Each of the counts fits into a byte. -/
def isCounted (m : Message) : Bool :=
  m.requiredSigners < 0x100 && m.readonlySigners < 0x100 && m.readonlyOthers < 0x100

def signers (m : Message) : List Address := m.addresses.take m.requiredSigners

/-- A number in groups of seven bits, least significant first; a set top bit says that another
group follows. -/
def groups (n : Nat) : Bytes :=
  if n < 0x80 then [UInt8.ofNat n] else UInt8.ofNat (n % 0x80 + 0x80) :: groups (n / 0x80)
termination_by n

/-- A length as it is written. A length of more than sixteen bits cannot be. -/
def compactLength (n : Nat) : Option Bytes := if n < 0x10000 then some (groups n) else none

theorem isSome_compactLength_iff {n : Nat} : (compactLength n).isSome = true ↔ n < 0x10000 := by
  simp [compactLength]

/-- The bytes of an instruction, or `none` if it cannot be written. -/
def encodeInstruction (i : CompiledInstruction) : Option Bytes := do
  let accountsLength ← compactLength i.accounts.length
  let dataLength ← compactLength i.data.length
  return i.program :: accountsLength ++ i.accounts ++ dataLength ++ i.data

/-- The bytes that are signed, or `none` if a message cannot be written. -/
def encode (m : Message) : Option Bytes := do
  let addressesLength ← compactLength m.addresses.length
  let instructionsLength ← compactLength m.instructions.length
  let instructions ← m.instructions.mapM encodeInstruction
  return [m.requiredSigners, m.readonlySigners, m.readonlyOthers].map UInt8.ofNat ++
    addressesLength ++ m.addresses.flatMap (·.toList) ++ m.blockhash.toList ++
    instructionsLength ++ instructions.flatten

end Message

end ComputeNet
