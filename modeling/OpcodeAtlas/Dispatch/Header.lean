import OpcodeAtlas.Dispatch.Layout
import OpcodeAtlas.Image.Displacement

/-!
# OpcodeAtlas.Dispatch.Header — the numbers that describe a switch

A `SwitchHeader` holds what the dispatch function says about its jump table. `readHeader` collects it
from an image; it stops at the first number that cannot be read and names it in a `DecodeError`.

* `SwitchHeader.entryPosition` — where the table entry of an index stands;
* `SwitchHeader.opcode` — the opcode that an index stands for.
-/

namespace OpcodeAtlas

/-- What describes a switch: the positions are signed, as the image base may lie in front of it. -/
structure SwitchHeader where
  bias : Int
  /-- The highest table index. -/
  count : Int
  defaultCase : Int
  imageBase : Int
  /-- The start of the jump table relative to the image base. -/
  tableData : Int
deriving DecidableEq, Repr

namespace SwitchHeader

/-- The width of a table entry. -/
def entryWidth : Int := 4

/-- The position of the first table entry. -/
def tableStart (h : SwitchHeader) : Int := h.imageBase + h.tableData

/-- The position of the table entry with the given index. -/
def entryPosition (h : SwitchHeader) (index : Int) : Int := h.tableStart + index * entryWidth

/-- The opcode that the table entry with the given index stands for. -/
def opcode (h : SwitchHeader) (index : Int) : Int := index - h.bias

end SwitchHeader

/-- The numbers that decoding reads. -/
inductive DispatchField where
  | bias | count | defaultCase | imageBase | tableData | tableEntry
deriving DecidableEq, Repr

/-- The name of a number in messages. -/
def DispatchField.name : DispatchField → String
  | .bias => "switchTableOffset"
  | .count => "switchTableCount"
  | .defaultCase => "defaultCaseAddr"
  | .imageBase => "imageBaseOffset"
  | .tableData => "switchTableDataOffset"
  | .tableEntry => "jump table entry"

/-- Why a switch could not be decoded. -/
inductive DecodeError where
  /-- A number could not be read. -/
  | unreadable (field : DispatchField) (cause : ReadError)
  /-- The highest table index is not the expected one. -/
  | countMismatch (expected found : Int)
deriving DecidableEq, Repr

/-- The wording of a decoding fault. -/
def DecodeError.message : DecodeError → String
  | .unreadable field cause => s!"Failed to read {field.name}: {cause.message}"
  | .countMismatch expected found =>
    s!"Switch table count mismatch: expected {expected}, found {found}"

/-- A read whose failure names the number that was to be read. -/
def DispatchField.reading (field : DispatchField) {α : Type} (read : Except ReadError α) :
    Except DecodeError α :=
  read.mapError (DecodeError.unreadable field)

/-- The description of the switch whose signature matched at `start`. Field offsets that exceed 64
bits stay at the largest offset, where nothing can be read. -/
def Layout.readHeader (layout : Layout) (image : Image) (start : Nat) :
    Except DecodeError SwitchHeader := do
  let place := Offset.saturatingAdd start
  -- The order decides which of two unreadable numbers is named.
  let bias ← DispatchField.bias.reading (image.readI8 (place layout.bias))
  let count ← DispatchField.count.reading (image.readI32 (place layout.count))
  let defaultCase ← DispatchField.defaultCase.reading (image.resolve (place layout.defaultCase))
  let imageBase ← DispatchField.imageBase.reading (image.resolve (place layout.imageBase))
  let tableData ← DispatchField.tableData.reading (image.readI32 (place layout.tableData))
  return { bias, count, defaultCase, imageBase, tableData }

end OpcodeAtlas
