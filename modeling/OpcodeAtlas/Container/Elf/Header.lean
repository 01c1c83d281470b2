import OpcodeAtlas.Container.Record

/-!
# OpcodeAtlas.Container.Elf.Header — the headers of an ELF image

The identification names the word class (32 or 64 bits) and the byte order. The file header leads to
the headers of the segments, which a loader goes by, and of the sections, which a linker goes by.
-/

namespace OpcodeAtlas.Container.Elf

/-- The bytes that an ELF image begins with. -/
def magic : List UInt8 := [0x7F, 0x45, 0x4C, 0x46]

/-- The number of bytes of the identification. -/
def identificationSize : Nat := 16

/-- How wide offsets and addresses are. -/
inductive WordClass where
  | bits32 | bits64
deriving DecidableEq, Repr

/-- How the numbers of an image are stored. -/
structure Format where
  wordClass : WordClass
  order : ByteOrder
deriving DecidableEq, Repr

namespace WordClass

/-- The number of bytes of an offset. -/
def word : WordClass → Nat
  | .bits32 => 4
  | .bits64 => 8

/-- The fields of the file header behind the identification. -/
def fileShape (c : WordClass) : RecordShape :=
  ⟨"Header", [("type", .number 2), ("machine", .number 2), ("version", .number 4),
    ("entry", .number c.word), ("segment_table", .number c.word),
    ("section_table", .number c.word), ("flags", .number 4), ("header_size", .number 2),
    ("segment_size", .number 2), ("segment_count", .number 2), ("section_size", .number 2),
    ("section_count", .number 2), ("names_index", .number 2)]⟩

/-- The fields of the header of a segment. -/
def segmentShape : WordClass → RecordShape
  | .bits32 => ⟨"ProgramHeader", [("type", .number 4), ("offset", .number 4),
      ("address", .number 4), ("physical_address", .number 4), ("file_size", .number 4),
      ("memory_size", .number 4), ("flags", .number 4), ("alignment", .number 4)]⟩
  | .bits64 => ⟨"ProgramHeader", [("type", .number 4), ("flags", .number 4),
      ("offset", .number 8), ("address", .number 8), ("physical_address", .number 8),
      ("file_size", .number 8), ("memory_size", .number 8), ("alignment", .number 8)]⟩

/-- The fields of the header of a section. -/
def sectionShape (c : WordClass) : RecordShape :=
  ⟨"SectionHeader", [("name", .number 4), ("type", .number 4), ("flags", .number c.word),
    ("address", .number c.word), ("offset", .number c.word), ("size", .number c.word),
    ("link", .number 4), ("info", .number 4), ("alignment", .number c.word),
    ("entry_size", .number c.word)]⟩

/-- The number of bytes of a symbol. -/
def symbolSize : WordClass → Nat
  | .bits32 => 16
  | .bits64 => 24

end WordClass

/-- The word class and the byte order that the identification declares. -/
def readFormat (image : Image) : Except ContainerFault Format := do
  let wordClass ← match ← image.field .lowFirst 4 1 with
    | 1 => pure .bits32
    | 2 => pure .bits64
    | other => throw (.wordClass other)
  match ← image.field .lowFirst 5 1 with
  | 1 => return ⟨wordClass, .lowFirst⟩
  | 2 => return ⟨wordClass, .highFirst⟩
  | other => throw (.byteOrder other)

/-- Reads `count` headers of one shape that follow each other from `start` on. -/
def readTable (image : Image) (f : Format) (shape : RecordShape) (start count : Nat) :
    Except ContainerFault (List Record) :=
  (List.range count).mapM fun i => image.record f.order shape (start + shape.size * i)

/-- The headers of the segments. -/
def readSegments (image : Image) (f : Format) (file : Record) :
    Except ContainerFault (List Record) := do
  let shape := f.wordClass.segmentShape
  let count := file.number "segment_count"
  if image.size / shape.size < count then throw (.tooManyEntries count "program headers")
  readTable image f shape (file.number "segment_table") count

/-- The headers of the sections. A table at offset zero is no table; a count of zero leaves the true
count to the size of the first header. -/
def readSections (image : Image) (f : Format) (file : Record) :
    Except ContainerFault (List Record) := do
  let shape := f.wordClass.sectionShape
  let start := file.number "section_table"
  if start = 0 then return []
  let first ← image.record f.order shape start
  let declared := file.number "section_count"
  let count := if declared = 0 then first.number "size" else declared
  if image.size / shape.size < count then throw (.tooManyEntries count "section headers")
  return first :: (← readTable image f shape (start + shape.size) (count - 1))

end OpcodeAtlas.Container.Elf
