import OpcodeAtlas.Image.Basic

/-!
# OpcodeAtlas.Dispatch.CaseBody — the handler that a case calls

The body of a case calls its handler through the vtable: at a fixed distance from its start stands
the byte that tells the width of the operand, and behind it the operand, the offset of the handler in
the vtable.

* `slotOfVtableOffset` — the slot of a vtable offset, none if the offset is not aligned;
* `CaseBody.classify` — the slot that a body calls, or the `CaseAnomaly` that hides it;
* `CaseBody.slot` — the slot alone.
-/

namespace OpcodeAtlas

/-- The width of a vtable entry. -/
def vtableEntryWidth : Int := 8

/-- The first entries of a vtable hold the constructor and the destructor. -/
def reservedSlots : Int := 2

/-- The handler slot at a byte offset of the vtable, reserved entries not counted. -/
def slotOfVtableOffset (offset : Int) : Option Int :=
  if offset % vtableEntryWidth = 0 then some (offset / vtableEntryWidth - reservedSlots) else none

/-- Why the body of a case tells no slot. -/
inductive CaseAnomaly where
  /-- The body does not start inside the image. -/
  | outside (target : Int) (cause : ReadError)
  /-- The operand byte announces no known width. -/
  | unrecognised (body modRM : Nat)
  /-- The image ends before the operand does. -/
  | truncated (body : Nat) (cause : ReadError)
  /-- The vtable offset lies between two entries. -/
  | unaligned (body : Nat) (offset : Int)
deriving DecidableEq, Repr

/-- The wording of an anomaly. -/
def CaseAnomaly.message : CaseAnomaly → String
  | .outside target cause => s!"Case body at {target} unreadable: {cause.message}"
  | .unrecognised body modRM =>
    let digits := Text.padLeft 2 '0' (Text.lowerHex modRM)
    s!"Case body at 0x{Text.lowerHex body} has unrecognised ModRM 0x{digits}"
  | .truncated body cause => s!"Case body at 0x{Text.lowerHex body} truncated: {cause.message}"
  | .unaligned body offset =>
    s!"Case body at 0x{Text.lowerHex body} calls unaligned vtable offset {offset}"

namespace CaseBody

/-- The distance of the byte that tells the operand's width. -/
def modRMOffset : Nat := 9

/-- The distance of the operand. -/
def operandOffset : Nat := 10

/-- The operand is one unsigned byte. -/
def byteOperand : Nat := 0x60

/-- The operand is a signed number of four bytes. -/
def wordOperand : Nat := 0xA0

/-- The vtable offset that the body at an offset of the image calls. -/
def vtableOffset (image : Image) (body : Nat) : Except CaseAnomaly Int := do
  let modRM ← (image.readU8 (Offset.saturatingAdd body modRMOffset)).mapError (.truncated body)
  let operand := Offset.saturatingAdd body operandOffset
  if modRM = byteOperand then
    ((image.readU8 operand).map Int.ofNat).mapError (.truncated body)
  else if modRM = wordOperand then
    (image.readI32 operand).mapError (.truncated body)
  else throw (.unrecognised body modRM)

/-- The slot that the body at a position calls. -/
def classify (image : Image) (target : Int) : Except CaseAnomaly Int := do
  let body ← (image.offsetOf target).mapError (.outside target)
  let offset ← vtableOffset image body
  match slotOfVtableOffset offset with
  | some slot => return slot
  | none => throw (.unaligned body offset)

/-- The slot that the body at a position calls, if it can be told. -/
def slot (image : Image) (target : Int) : Option Int := (classify image target).toOption

end CaseBody

end OpcodeAtlas
