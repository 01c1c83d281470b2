import OpcodeAtlas.Container.Record
import OpcodeAtlas.Container.Survey

/-!
# OpcodeAtlas.Container.Pe.Header — the headers of a PE image

A PE image begins with the header and the program of an older format. The number at 0x3C leads to the
signature `PE\0\0`; a file header of 20 bytes and, where that announces one, an optional header follow
it. The optional header comes in two widths and ends with a list of directories.
-/

namespace OpcodeAtlas.Container.Pe

/-- The bytes that a PE image begins with. -/
def magic : List UInt8 := [0x4D, 0x5A]

/-! ## The older header and its program -/

/-- Where the offset of the signature stands. -/
def pointerOffset : Nat := 0x3C

/-- Where the older program begins. -/
def stubOffset : Nat := 0x40

/-- The number of bytes of the older program that must be there. -/
def stubSize : Nat := 0x40

/-- The fields of the older header in front of the offset of the signature. -/
def dosFields : List (String × FieldShape) :=
  [("signature", .number 2), ("bytes_on_last_page", .number 2), ("pages_in_file", .number 2),
    ("relocations", .number 2), ("size_of_header_in_paragraphs", .number 2),
    ("minimum_extra_paragraphs_needed", .number 2), ("maximum_extra_paragraphs_needed", .number 2),
    ("initial_relative_ss", .number 2), ("initial_sp", .number 2), ("checksum", .number 2),
    ("initial_ip", .number 2), ("initial_relative_cs", .number 2),
    ("file_address_of_relocation_table", .number 2), ("overlay_number", .number 2),
    ("reserved", .unused 4), ("oem_id", .number 2), ("oem_info", .number 2),
    ("reserved2", .unused 10)]

/-- The number that the signature spells. -/
def signature : Nat := 0x4550

/-- The older header, which must lead to the signature. -/
def readDosHeader (image : Image) : Except ContainerFault Record := do
  let fields ← image.fieldValues .lowFirst 0 dosFields
  let pointer ← (image.field .lowFirst pointerOffset 4).mapError
    fun _ => .noHeaderPointer pointerOffset
  let found ← (image.field .lowFirst pointer 4).mapError fun _ => .noSignature pointer
  if found ≠ signature then throw (.otherSignature found)
  return ⟨"DosHeader", fields ++ [("pe_pointer", .number pointer)]⟩

/-! ## The file header -/

/-- The fields of the file header. -/
def coffShape : RecordShape :=
  ⟨"CoffHeader", [("machine", .number 2), ("number_of_sections", .number 2),
    ("time_date_stamp", .number 4), ("pointer_to_symbol_table", .number 4),
    ("number_of_symbol_table", .number 4), ("size_of_optional_header", .number 2),
    ("characteristics", .number 2)]⟩

/-- The machine with 64-bit registers whose exceptions are listed. -/
def machineX64 : Nat := 0x8664

/-! ## The optional header -/

/-- An entry of the list of directories. -/
structure Directory where
  /-- The distance of the entry from the start of the optional header. -/
  place : Nat
  address : Nat
  size : Nat
deriving DecidableEq, Repr

/-- An optional header. -/
structure OptionalHeader where
  /-- Whether addresses have 64 bits. -/
  isWide : Bool
  standard : Record
  windows : Record
  /-- The directories that are present, each at its index. -/
  directories : List (Option Directory)
deriving DecidableEq, Repr

/-- The most directories that a list may have. -/
def maxDirectories : Nat := 16

/-- The first part of the optional header. -/
def standardShape (isWide : Bool) : RecordShape :=
  ⟨"StandardFields", [("magic", .number 2), ("major_linker_version", .number 1),
    ("minor_linker_version", .number 1), ("size_of_code", .number 4),
    ("size_of_initialized_data", .number 4), ("size_of_uninitialized_data", .number 4),
    ("address_of_entry_point", .number 4), ("base_of_code", .number 4)] ++
    if isWide then [] else [("base_of_data", .number 4)]⟩

/-- The second part of the optional header. -/
def windowsShape (isWide : Bool) : RecordShape :=
  let word := if isWide then 8 else 4
  ⟨"WindowsFields64", [("image_base", .number word), ("section_alignment", .number 4),
    ("file_alignment", .number 4), ("major_operating_system_version", .number 2),
    ("minor_operating_system_version", .number 2), ("major_image_version", .number 2),
    ("minor_image_version", .number 2), ("major_subsystem_version", .number 2),
    ("minor_subsystem_version", .number 2), ("win32_version_value", .number 4),
    ("size_of_image", .number 4), ("size_of_headers", .number 4), ("check_sum", .number 4),
    ("subsystem", .number 2), ("dll_characteristics", .number 2),
    ("size_of_stack_reserve", .number word), ("size_of_stack_commit", .number word),
    ("size_of_heap_reserve", .number word), ("size_of_heap_commit", .number word),
    ("loader_flags", .number 4), ("number_of_rva_and_sizes", .number 4)]⟩

/-- Whether the magic number of an optional header announces 64-bit addresses. -/
def isWide? : Nat → Option Bool
  | 0x10B => some false
  | 0x20B => some true
  | _ => none

/-- The directory at a distance from the start of the optional header; two zeros mean that there is
none. -/
def readDirectory (image : Image) (start place : Nat) :
    Except ContainerFault (Option Directory) := do
  let address ← image.field .lowFirst (start + place) 4
  let size ← image.field .lowFirst (start + place + 4) 4
  return if address = 0 ∧ size = 0 then none else some ⟨place, address, size⟩

/-- The optional header at `start`. -/
def readOptionalHeader (image : Image) (start : Nat) : Except ContainerFault OptionalHeader := do
  let magic ← image.field .lowFirst start 2
  match isWide? magic with
  | none => throw (.otherMagic magic)
  | some isWide =>
    let standard ← image.record .lowFirst (standardShape isWide) start
    let behindStandard := (standardShape isWide).size
    let windows ← image.record .lowFirst (windowsShape isWide) (start + behindStandard)
    let behindWindows := behindStandard + (windowsShape isWide).size
    let count := windows.number "number_of_rva_and_sizes"
    if maxDirectories < count then throw (.tooManyDirectories count)
    let directories ← (List.range count).mapM fun i =>
      readDirectory image start (behindWindows + 8 * i)
    return { isWide, standard, windows, directories }

/-! ## All headers -/

/-- The headers of a PE image. -/
structure Header where
  dos : Record
  stub : List UInt8
  coff : Record
  optional : Option OptionalHeader
deriving DecidableEq, Repr

/-- Where the optional header stands, or would stand. -/
def Header.optionalStart (h : Header) : Nat := h.dos.number "pe_pointer" + 4 + coffShape.size

/-- The headers of an image. -/
def readHeader (image : Image) : Except ContainerFault Header := do
  let dos ← readDosHeader image
  let stub ← (image.window stubOffset stubSize).mapError fun _ => .noStub stubOffset
  let start := dos.number "pe_pointer" + 4
  let coff ← image.record .lowFirst coffShape start
  let optional ←
    if coff.number "size_of_optional_header" = 0 then pure none
    else some <$> readOptionalHeader image (start + coffShape.size)
  return { dos, stub, coff, optional }

/-! ## Headers in messages -/

/-- A directory as messages show it. -/
def Directory.outline (d : Directory) : Outline :=
  .call "" [.number d.place,
    .record "DataDirectory" [("virtual_address", .number d.address), ("size", .number d.size)]]

/-- An optional header as messages show it: in the wide form, whatever its own. -/
def OptionalHeader.outline (h : OptionalHeader) : Outline :=
  let standard : Record :=
    if h.isWide then ⟨h.standard.name, h.standard.fields ++ [("base_of_data", .number 0)]⟩
    else h.standard
  let directory (index : Nat) : Outline :=
    .option ((h.directories[index]?).join.map Directory.outline)
  let directories := (List.range maxDirectories).map directory
  .record "OptionalHeader" [("standard_fields", standard.outline),
    ("windows_fields", h.windows.outline),
    ("data_directories", .record "DataDirectories" [("data_directories", .list directories)])]

/-- Headers as messages show them. -/
def Header.outline (h : Header) : Outline :=
  .record "Header" [("dos_header", h.dos.outline),
    ("dos_stub", .call "DosStub" [.numbers (h.stub.map UInt8.toNat)]),
    ("signature", .number signature), ("coff_header", h.coff.outline),
    ("optional_header", .option (h.optional.map OptionalHeader.outline))]

end OpcodeAtlas.Container.Pe
