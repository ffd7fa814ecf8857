import ChainMarketPrice.Lib.Packed

/-!
# Message schemas

A message schema names the fields of a message with their types, and a generic reader walks the
fields over a buffer: packed, lowest byte first, composites member by member, and the
variable-length data behind the block of fixed fields.
-/

namespace WireSchema

open Bytes

variable {ν τ : Type}

inductive Primitive
  | uint8
  | uint16
  | uint32
  | uint64
  | int64
deriving Repr, DecidableEq

namespace Primitive

/-- The width in bytes. -/
def width : Primitive → ℕ
  | uint8 => 1
  | uint16 => 2
  | uint32 => 4
  | uint64 => 8
  | int64 => 8

/-- The number that an unsigned reading stands for; signed types are in two's complement. -/
def value : Primitive → ℕ → ℤ
  | int64, n => if n < 2 ^ 63 then n else n - 2 ^ 64
  | _, n => n

end Primitive

/-- A type of the schema; an enumeration is the primitive it is encoded as. -/
inductive Encoding (ν : Type)
  | primitive (p : Primitive)
  | composite (members : List (ν × Primitive))

/-- A message: its fixed fields, and its variable-length data with the type of each length. -/
structure Message (ν τ : Type) where
  id : ℕ
  fields : List (ν × τ)
  data : List (ν × Primitive) := []

structure Schema (ν τ : Type) where
  id : ℕ
  version : ℕ
  encoding : τ → Encoding ν
  header : List (ν × Primitive)

/-- The primitives of a field, each under its path. -/
def Encoding.leaves (name : ν) : Encoding ν → List (List ν × Primitive)
  | .primitive p => [([name], p)]
  | .composite members => members.map fun m => ([name, m.1], m.2)

namespace Schema

variable (schema : Schema ν τ) (message : Message ν τ)

/-- The fixed fields of a message as primitives. -/
def block : List (List ν × Primitive) :=
  message.fields.flatMap fun field => (schema.encoding field.2).leaves field.1

/-- The header and the fixed fields. -/
def layout : List (List ν × Primitive) :=
  schema.header.map (fun member => ([member.1], member.2)) ++ schema.block message

/-- The bytes of a list of primitives. -/
def size (leaves : List (List ν × Primitive)) : ℕ := (leaves.map fun leaf => leaf.2.width).sum

end Schema

/-- The values of primitives that follow each other in the bytes. -/
def readLeaves : List (List ν × Primitive) → List UInt8 → List (List ν × ℤ)
  | [], _ => []
  | (path, p) :: leaves, bytes =>
    (path, p.value (ofLe (bytes.take p.width))) :: readLeaves leaves (bytes.drop p.width)

/-- The variable-length data: a length, and as many bytes. -/
def readData : List (ν × Primitive) → List UInt8 → List (ν × List UInt8)
  | [], _ => []
  | (name, p) :: rest, bytes =>
    let length := ofLe (bytes.take p.width)
    (name, (bytes.drop p.width).take length)
      :: readData rest ((bytes.drop p.width).drop length)

/-- What the generic reader finds in a buffer. -/
structure Reading (ν : Type) where
  values : List (List ν × ℤ)
  data : List (ν × List UInt8)

/-- Walk the layout of a message over a buffer. -/
def Schema.read (schema : Schema ν τ) (message : Message ν τ) (bytes : List UInt8) :
    Reading ν where
  values := readLeaves (schema.layout message) bytes
  data := readData message.data (bytes.drop (Schema.size (schema.layout message)))

/-- The generic reader reads by the widths. -/
lemma readLeaves_eq (leaves : List (List ν × Primitive)) (bytes : List UInt8) :
    readLeaves leaves bytes =
      List.zipWith (fun leaf n => (leaf.1, leaf.2.value n)) leaves
        (unpack (leaves.map fun leaf => leaf.2.width) bytes) := by
  induction leaves generalizing bytes with
  | nil => rfl
  | cons leaf leaves ih => rw [readLeaves, ih, List.map_cons, unpack, List.zipWith_cons_cons]

end WireSchema
