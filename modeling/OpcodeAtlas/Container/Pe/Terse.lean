import OpcodeAtlas.Container.Pe.Directory

/-!
# OpcodeAtlas.Container.Pe.Terse — terse executables

Firmware keeps PE images with a short header in the place of the usual ones. The header tells how many
bytes were stripped; addresses in it still count them. A terse executable is read to its end, but counts
as raw bytes.
-/

namespace OpcodeAtlas.Container.Pe

/-- The number that a terse executable begins with. -/
def terseMagic : Nat := 0x5A56

/-- The fields of the short header. -/
def terseShape : RecordShape :=
  ⟨"TeHeader", [("signature", .number 2), ("machine", .number 2), ("number_of_sections", .number 1),
    ("subsystem", .number 1), ("stripped_size", .number 2), ("entry_point", .number 4),
    ("base_of_code", .number 4), ("image_base", .number 8),
    ("reloc_dir", .group "DataDirectory" ["virtual_address", "size"]),
    ("debug_dir", .group "DataDirectory" ["debug_address", "debug_size"])]⟩

/-- The address of 32 bits without the bytes that were stripped. -/
def unstripped (header : Record) (address : Nat) : Nat :=
  (address + terseShape.size + (0x1_0000_0000 - header.number "stripped_size")) %
    0x1_0000_0000

/-- Reads a terse executable. -/
def checkTerse (image : Image) : Survey Unit := do
  let header ← image.record .lowFirst terseShape 0
  let _ ← readEntries image 0 terseShape.size (header.number "number_of_sections")
  let entry ← image.record .lowFirst debugShape
    (unstripped header (header.number "debug_address"))
  if entry.number "data_type" = codeViewType then
    checkCodeView image entry (unstripped header (entry.number "address_of_raw_data")) codeView70

end OpcodeAtlas.Container.Pe
