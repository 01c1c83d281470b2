import OpcodeAtlas.Container.Pe.Directory

/-!
# OpcodeAtlas.Container.Pe — the sections of a PE image

All entries of the section table count, whatever their size. A part that is cut off by the end of the
image, or a directory that leads nowhere, makes the whole image no PE image.
-/

namespace OpcodeAtlas.Container.Pe

/-- The sections of a PE image in the order of its section table. -/
def sections (image : Image) : Survey (List Section) := do
  let header ← readHeader image
  Survey.tellValue "goblin::pe" "" header.outline
  let start := header.optionalStart + header.coff.number "size_of_optional_header"
  let entries ← readSectionTable image header.coff start
  if let some optional := header.optional then
    checkDirectories image entries (header.coff.number "machine") optional
  return entries.map SectionEntry.toSection

end OpcodeAtlas.Container.Pe
