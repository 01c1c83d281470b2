import OpcodeAtlas.Container.Basic
import OpcodeAtlas.Container.Elf.Dynamic

/-!
# OpcodeAtlas.Container.Elf — the sections of an ELF image

The sections are those of the section headers, named by the table of names that the file header points
to. Sections of size zero are left out. Whatever else the headers lead to must be there.
-/

namespace OpcodeAtlas.Container.Elf

/-- A section header as a section of the file. -/
def toSection (names : StringTable) (s : Record) : Section :=
  ⟨(names.at? (s.number "name")).getD "", s.number "offset", s.number "size"⟩

/-- The sections of an ELF image in the order of its section headers. -/
def sections (image : Image) : Survey (List Section) := do
  let f ← readFormat image
  let file ← image.record f.order f.wordClass.fileShape identificationSize
  let segments ← readSegments image f file
  let headers ← readSections image f file
  let names ← readNames image headers (file.number "names_index")
  checkSymbolSections image f headers
  if let some d ← readDynamic? image f segments then
    checkDynamic image f (file.number "machine") d
  checkRelocationSections image headers
  checkVersionSections image headers
  return (headers.filter (0 < ·.number "size")).map (toSection names)

end OpcodeAtlas.Container.Elf
