import OpcodeAtlas.Container.Pe.SectionTable
import OpcodeAtlas.Container.StringTable

/-!
# OpcodeAtlas.Container.Pe.Object — object files

An object file is what a PE image is linked from: the file header at its start, a section table,
symbols, and the strings behind them. It is read to its end, but counts as raw bytes.
-/

namespace OpcodeAtlas.Container.Pe

/-- The machines whose object files are known. -/
def objectMachines : List Nat := [0x14C, 0x8664, 0xAA64]

/-- Checks the symbols of an object file and the strings behind them, which begin with their size. -/
def checkSymbols (image : Image) (coff : Record) : Except ContainerFault Unit := do
  let start := coff.number "pointer_to_symbol_table"
  if start = 0 then return
  let size := symbolSize * coff.number "number_of_symbol_table"
  let _ ← image.window start size
  let length ← image.field .lowFirst (start + size) 4
  let _ ← StringTable.read image (start + size + 4)
    (if length < 4 then 0x1_0000_0000_0000_0000 + length - 4 else length - 4)

/-- Reads an object file. -/
def checkObject (image : Image) : Survey Unit := do
  let coff ← image.record .lowFirst coffShape 0
  Survey.tellValue "goblin::pe" "" coff.outline
  let start := coffShape.size + coff.number "size_of_optional_header"
  let _ ← readSectionTable image coff start
  checkSymbols image coff

end OpcodeAtlas.Container.Pe
