import OpcodeAtlas.Container.Field
import OpcodeAtlas.Text.Outline

/-!
# OpcodeAtlas.Container.Record — the records that headers are made of

The shape of a record lists its fields in file order, so that a record is read, shown and asked for its
fields by that list alone.

* `Image.record` — reads a record field by field; the first field that is not there is the fault;
* `Record.number`, `Record.bytes` — the value of a field;
* `Record.outline` — the record as messages show it.
-/

namespace OpcodeAtlas

/-- How a field is stored. -/
inductive FieldShape where
  /-- A number of so many bytes. -/
  | number (width : Nat)
  /-- Single bytes, one read after the other. -/
  | bytes (count : Nat)
  /-- Bytes that are read at once. -/
  | window (count : Nat)
  /-- So many numbers of two bytes that are passed over and count as zero. -/
  | unused (count : Nat)
  /-- A record of numbers of four bytes. -/
  | group (name : String) (fields : List String)

/-- The fields of a record in file order. -/
structure RecordShape where
  name : String
  fields : List (String × FieldShape)

/-- The value of a field. -/
inductive FieldValue where
  | number (n : Nat)
  | bytes (bytes : List UInt8)
  | unused (count : Nat)
  | group (name : String) (fields : List (String × Nat))
deriving DecidableEq, Repr

/-- A record with the values of its fields. -/
structure Record where
  name : String
  fields : List (String × FieldValue)
deriving DecidableEq, Repr

/-- The number of bytes that a field takes. -/
def FieldShape.size : FieldShape → Nat
  | .number width => width
  | .bytes count | .window count => count
  | .unused count => 2 * count
  | .group _ fields => 4 * fields.length

/-- The number of bytes that a record takes. -/
def RecordShape.size (shape : RecordShape) : Nat := shape.fields.foldl (fun size f => size + f.2.size) 0

namespace Record

/-- The number in a field, also in one of a group; zero if there is none of that name. -/
def number (r : Record) (field : String) : Nat :=
  let numberIn : String × FieldValue → Option Nat
    | (name, .number n) => if name = field then some n else none
    | (_, .group _ fields) => fields.lookup field
    | _ => none
  (r.fields.findSome? numberIn).getD 0

/-- The bytes in a field; none if there is none of that name. -/
def bytes (r : Record) (field : String) : List UInt8 :=
  match r.fields.lookup field with
  | some (.bytes bytes) => bytes
  | _ => []

/-- The value of a field as messages show it. -/
def valueOutline : FieldValue → Outline
  | .number n => .number n
  | .bytes bytes => .numbers (bytes.map UInt8.toNat)
  | .unused count => .numbers (List.replicate count 0)
  | .group name fields => .record name (fields.map fun f => (f.1, .number f.2))

/-- The record as messages show it. -/
def outline (r : Record) : Outline :=
  .record r.name (r.fields.map fun f => (f.1, valueOutline f.2))

end Record

namespace Image

/-- The value of a field at `offset`. -/
def fieldValue (image : Image) (order : ByteOrder) (offset : Nat) :
    FieldShape → Except ContainerFault FieldValue
  | .number width => return .number (← image.field order offset width)
  | .bytes count =>
    match image.window offset count with
    | .ok bytes => .ok (.bytes bytes)
    | .error (.cutShort ..) => .error (.cutShort 1 0)
    | .error fault => .error fault
  | .window count => return .bytes (← image.window offset count)
  | .unused count => .ok (.unused count)
  | .group name fields => do
    let values ← fields.zipIdx.mapM fun (field, i) =>
      return (field, ← image.field order (offset + 4 * i) 4)
    return .group name values

/-- The values of fields that follow each other from `offset` on. -/
def fieldValues (image : Image) (order : ByteOrder) (offset : Nat) :
    List (String × FieldShape) → Except ContainerFault (List (String × FieldValue))
  | [] => .ok []
  | (name, shape) :: rest => do
    let value ← image.fieldValue order offset shape
    return (name, value) :: (← fieldValues image order (offset + shape.size) rest)

/-- The record at `offset`. -/
def record (image : Image) (order : ByteOrder) (shape : RecordShape) (offset : Nat) :
    Except ContainerFault Record := do
  return ⟨shape.name, ← image.fieldValues order offset shape.fields⟩

end Image

end OpcodeAtlas
