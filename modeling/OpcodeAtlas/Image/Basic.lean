import OpcodeAtlas.Image.LittleEndian
import OpcodeAtlas.Image.Offset
import OpcodeAtlas.Text.Hex

/-!
# OpcodeAtlas.Image.Basic — a loaded executable

An `Image` is the sequence of bytes of an executable. Every read states the window that it needs and
fails with a `ReadError` when the window does not lie in the image; nothing is read past the end.

* `readBytes` — the bytes of a window at an unsigned offset;
* `readU8`, `readI8`, `readI32` — numbers of one and four bytes, low byte first;
* `offsetOf` — the offset of a signed position, the end of the image included;
* `readI32At` — a number of four bytes at a signed position.
-/

namespace OpcodeAtlas

/-- The bytes of an executable. -/
structure Image where
  bytes : Array UInt8
deriving DecidableEq, Inhabited

/-- Why a read found no value. -/
inductive ReadError where
  /-- The `length` bytes at `offset` do not lie in an image of `size` bytes. -/
  | outOfRange (offset length size : Nat)
  /-- The position lies in front of the image. -/
  | negativePosition (position : Int)
deriving DecidableEq, Repr

/-- The wording of a failed read. -/
def ReadError.message : ReadError → String
  | .outOfRange offset length size =>
    s!"Out of range: {length} bytes at offset 0x{Text.lowerHex offset} " ++
      s!"exceed image size 0x{Text.lowerHex size}"
  | .negativePosition position => s!"Negative image position: {position}"

namespace Image

/-- The image that holds the listed bytes. -/
def ofList (bytes : List UInt8) : Image := ⟨bytes.toArray⟩

/-- The number of bytes. -/
def size (image : Image) : Nat := image.bytes.size

/-- True of the image without bytes. -/
def isEmpty (image : Image) : Bool := image.bytes.isEmpty

/-- The byte at an offset, if the image reaches that far. -/
def byte? (image : Image) (offset : Nat) : Option UInt8 := image.bytes[offset]?

/-- The bytes from `start` up to but not including `stop`. -/
def slice (image : Image) (start stop : Nat) : List UInt8 :=
  (image.bytes.extract start stop).toList

/-! ## Windows at an offset -/

/-- The `length` bytes at `offset`. -/
def readBytes (image : Image) (offset length : Nat) : Except ReadError (List UInt8) :=
  match (Offset.checkedAdd offset length).filter (· ≤ image.size) with
  | some stop => .ok (image.slice offset stop)
  | none => .error (.outOfRange offset length image.size)

/-- The byte at `offset` as a number from 0 to 255. -/
def readU8 (image : Image) (offset : Nat) : Except ReadError Nat :=
  (image.readBytes offset 1).map LittleEndian.unsigned

/-- The byte at `offset` as a number from -128 to 127. -/
def readI8 (image : Image) (offset : Nat) : Except ReadError Int :=
  (image.readBytes offset 1).map LittleEndian.signed

/-- The four bytes at `offset` as a signed number. -/
def readI32 (image : Image) (offset : Nat) : Except ReadError Int :=
  (image.readBytes offset 4).map LittleEndian.signed

/-! ## Signed positions -/

/-- The offset of a position; the end of the image counts as inside. -/
def offsetOf (image : Image) (position : Int) : Except ReadError Nat :=
  if position < 0 then .error (.negativePosition position)
  else if image.size < position.toNat then .error (.outOfRange position.toNat 0 image.size)
  else .ok position.toNat

/-- The four bytes at a position as a signed number. -/
def readI32At (image : Image) (position : Int) : Except ReadError Int := do
  image.readI32 (← image.offsetOf position)

end Image

end OpcodeAtlas
