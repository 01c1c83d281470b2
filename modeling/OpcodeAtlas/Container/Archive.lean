import OpcodeAtlas.Container.Record
import OpcodeAtlas.Container.StringTable
import OpcodeAtlas.Container.Survey
import OpcodeAtlas.Decimal.Numeral
import OpcodeAtlas.Text.Blank

/-!
# OpcodeAtlas.Container.Archive — archives of object files

An archive is a row of members, each behind a header of 60 bytes in ASCII and at an even offset. It is
read to its end, but counts as raw bytes.
-/

namespace OpcodeAtlas.Container.Archive

/-- The bytes that an archive begins with. -/
def magic : List UInt8 := Text.utf8 "!<arch>\n"

/-- The fields of the header of a member. -/
def memberShape : RecordShape :=
  ⟨"MemberHeader", [("identifier", .bytes 16), ("timestamp", .bytes 12), ("owner_id", .bytes 6),
    ("group_id", .bytes 6), ("mode", .bytes 8), ("file_size", .bytes 10), ("terminator", .bytes 2)]⟩

/-- The name of the member that lists symbols. -/
def indexName : String := "/               "

/-- The text of bytes that are taken from so many. -/
def textOf (bytes : List UInt8) (available : Nat) : Except ContainerFault String :=
  match Text.ofUtf8? bytes with
  | some text => .ok text
  | none => .error (.notText available)

/-- The size that a header states, with white space behind it. -/
def memberSize (header : Record) : Except ContainerFault Nat := do
  let field := header.bytes "file_size"
  let text ← textOf field field.length
  match Decimal.readNumeral (text.toList.reverse.dropWhile Text.isBlank).reverse with
  | .ok size => return size
  | .error problem =>
    let kind : Outline := .record "ParseIntError" [("kind", .word problem.name)]
    throw (.memberSize kind.inline header.outline.inline)

/-- Checks the list of symbols in the first member. -/
def checkIndex (image : Image) (offset size : Nat) : Except ContainerFault Unit := do
  let _ ← image.window offset size
  let count ← image.field .highFirst offset 4
  if size / 4 < count then throw (.tooManyEntries count "indices")
  let _ ← image.window (offset + 4) (4 * count)
  let _ ← StringTable.read image (offset + 4 + 4 * count) (size - (4 * count + 4))

/-- Checks the members from `offset` on. -/
def checkMembers (image : Image) : (fuel offset : Nat) → Except ContainerFault Unit
  | 0, _ => .ok ()
  | fuel + 1, offset => do
    if image.size ≤ offset + 1 then return
    let start := offset + offset % 2
    let name ← textOf (← image.window start 16) (image.size - start)
    let header ← image.record .lowFirst memberShape start
    let size ← memberSize header
    let content := start + memberShape.size
    if name = indexName then checkIndex image content size
    checkMembers image fuel (content + size)

/-- Reads an archive. -/
def check (image : Image) : Survey Unit := checkMembers image image.size magic.length

end OpcodeAtlas.Container.Archive
