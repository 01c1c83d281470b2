import OpcodeAtlas.Container.Elf.Header
import OpcodeAtlas.Container.StringTable

/-!
# OpcodeAtlas.Container.Elf.Section — what sections hold

Sections of some types are looked at, and make the image no ELF image if their content is not there:
tables of names, symbols, relocations and the versions of symbols.
-/

namespace OpcodeAtlas.Container.Elf

/-! ## Types of sections -/

def typeSymbols : Nat := 2
def typeRelocationsWithAddend : Nat := 4
/-- A section without content in the file. -/
def typeNoBits : Nat := 8
def typeRelocations : Nat := 9
def typeVersions : Nat := 0x6FFFFFFF
def typeVersionsNeeded : Nat := 0x6FFFFFFE
def typeVersionsDefined : Nat := 0x6FFFFFFD

/-! ## Content -/

/-- Checks that a section lies in the file and in memory. -/
def checkContent (image : Image) (s : Record) : Except ContainerFault Unit := do
  let name := s.number "name"
  let offset := s.number "offset"
  let size := s.number "size"
  let address := s.number "address"
  if s.number "type" = typeNoBits ∨ size = 0 then return
  if image.size < offset + size then
    throw (.sectionPastEnd name offset size (Offset.limit ≤ offset + size))
  if Offset.limit ≤ address + size then throw (.sectionPastMemory name address size)

/-- The table of names in the section at an index. The greatest index stands for one that does not
fit; the first header holds it then. -/
def readNames (image : Image) (sections : List Record) (index : Nat) :
    Except ContainerFault StringTable := do
  let index :=
    if index = 0xFFFF then (sections.head?.map (·.number "link")).getD index else index
  match sections[index]? with
  | none => return .empty
  | some s =>
    checkContent image s
    StringTable.read image (s.number "offset") (s.number "size")

/-- Checks that `count` symbols are there. -/
def checkSymbols (image : Image) (f : Format) (offset count : Nat) :
    Except ContainerFault Unit := do
  let size := count * f.wordClass.symbolSize
  if Offset.limit ≤ size then throw (.tooManySymbols offset count)
  let _ ← image.window offset size

/-- Checks the sections with symbols, and the names of the symbols. -/
def checkSymbolSections (image : Image) (f : Format) (sections : List Record) :
    Except ContainerFault Unit :=
  (sections.filter (·.number "type" = typeSymbols)).forM fun s => do
    checkSymbols image f (s.number "offset") (s.number "size" / s.number "entry_size")
    let _ ← readNames image sections (s.number "link")

/-- Checks the sections with relocations. -/
def checkRelocationSections (image : Image) (sections : List Record) :
    Except ContainerFault Unit :=
  let types := [typeRelocationsWithAddend, typeRelocations]
  (sections.filter fun s => types.contains (s.number "type")).forM fun s => do
    checkContent image s
    if s.number "size" ≠ 0 then
      let _ ← image.window (s.number "offset") (s.number "size")

/-- Checks the first section of each type that holds versions of symbols. -/
def checkVersionSections (image : Image) (sections : List Record) : Except ContainerFault Unit :=
  [typeVersions, typeVersionsDefined, typeVersionsNeeded].forM fun type => do
    if let some s := sections.find? (·.number "type" = type) then
      let _ ← image.window (s.number "offset") (s.number "size")

end OpcodeAtlas.Container.Elf
