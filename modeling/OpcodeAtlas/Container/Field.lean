import OpcodeAtlas.Container.Fault
import OpcodeAtlas.Image.Basic
import OpcodeAtlas.Text.Utf8

/-!
# OpcodeAtlas.Container.Field — values in container headers

Headers hold unsigned numbers of one to eight bytes, in the byte order that the container declares,
windows of bytes, and texts that end before a NUL. A value that starts at the end of the image is cut
short; one that starts past the end has no place at all.
-/

namespace OpcodeAtlas

/-- Which byte of a number stands first. -/
inductive ByteOrder where
  | lowFirst | highFirst
deriving DecidableEq, Repr

/-- The number that the bytes spell in this order. -/
def ByteOrder.number : ByteOrder → List UInt8 → Nat
  | .lowFirst, bytes => LittleEndian.unsigned bytes
  | .highFirst, bytes => LittleEndian.unsigned bytes.reverse

namespace Image

/-- The `length` bytes at `offset`. -/
def window (image : Image) (offset length : Nat) : Except ContainerFault (List UInt8) :=
  if image.size < offset then .error (.offsetPastEnd offset)
  else if image.size - offset < length then .error (.cutShort length (image.size - offset))
  else .ok (image.slice offset (offset + length))

/-- The unsigned number of `width` bytes at `offset`. -/
def field (image : Image) (order : ByteOrder) (offset width : Nat) : Except ContainerFault Nat :=
  (image.window offset width).map order.number

/-- The text that starts at `offset` and ends before a NUL or with the image. -/
def textAt (image : Image) (offset : Nat) : Except ContainerFault String :=
  if image.size < offset then .error (.offsetPastEnd offset)
  else
    let rest := image.bytes.extract offset image.size
    match Text.ofUtf8? (rest.takeWhile (· ≠ 0)).toList with
    | some text => .ok text
    | none => .error (.notText rest.size)

/-- Whether the image begins with the bytes. -/
def startsWith (image : Image) (bytes : List UInt8) : Bool :=
  image.slice 0 bytes.length == bytes

end Image

end OpcodeAtlas
