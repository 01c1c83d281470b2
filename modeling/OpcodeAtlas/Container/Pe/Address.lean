import OpcodeAtlas.Container.Pe.SectionTable

/-!
# OpcodeAtlas.Container.Pe.Address — addresses in memory and offsets in the file

A loader places each section at an address of its own. An address belongs to the first section, in
file order, whose stretch in memory holds it. A section starts in the file at a multiple of 512 bytes,
and no more of it is loaded than the file has for it, or than it takes in memory, in whole pages.
-/

namespace OpcodeAtlas.Container.Pe

/-- How addresses are mapped to offsets. -/
structure Mapping where
  /-- The unit in which the file is laid out: a power of two, or else no address is mapped. -/
  alignment : Nat
  entries : List SectionEntry
deriving DecidableEq, Repr

/-- The least multiple of `unit` that is not less than `n`. -/
def roundUp (unit n : Nat) : Nat := (n + unit - 1) / unit * unit

/-- The size of a page in memory. -/
def pageSize : Nat := 0x1000

namespace SectionEntry

/-- Where the section starts in the file. -/
def fileStart (e : SectionEntry) : Nat := e.record.number "pointer_to_raw_data" / 512 * 512

/-- The number of bytes of the section that are loaded. -/
def loadedSize (e : SectionEntry) (alignment : Nat) : Nat :=
  let rawSize := e.record.number "size_of_raw_data"
  let stop := roundUp alignment (e.record.number "pointer_to_raw_data" + rawSize)
  let fromFile := min (stop - e.fileStart) (roundUp pageSize rawSize)
  match e.record.number "virtual_size" with
  | 0 => fromFile
  | virtualSize => min fromFile (roundUp pageSize virtualSize)

end SectionEntry

namespace Mapping

/-- The offset in the file of an address in memory. -/
def offsetOf? (m : Mapping) (address : Nat) : Option Nat :=
  let distance (e : SectionEntry) := address - e.record.number "virtual_address"
  let holds (e : SectionEntry) : Bool :=
    e.record.number "virtual_address" ≤ address && distance e < e.loadedSize m.alignment
  if m.alignment ≠ 0 ∧ m.alignment &&& (m.alignment - 1) = 0 then
    (m.entries.find? holds).map fun e => distance e + e.fileStart
  else none

/-- The name at an address in memory. -/
def nameAt (m : Mapping) (image : Image) (address : Nat) : Except ContainerFault String :=
  match m.offsetOf? address with
  | some offset => image.textAt offset
  | none =>
    .error (.nameUnmapped address (Outline.list (m.entries.map SectionEntry.outline)).inline)

end Mapping

end OpcodeAtlas.Container.Pe
