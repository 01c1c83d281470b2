import OpcodeAtlas.Text.Hex

/-!
# OpcodeAtlas.Container.Basic — what an image is made of

An executable comes in a container format that divides it into named sections. The description serves
messages only: decoding works on offsets and never asks for it.

* `Section.contains` — whether an offset lies in a section; the test subtracts instead of adding, so
  that a section may reach past the largest offset;
* `Container.sectionAt` — the first section, in file order, that holds an offset;
* `Container.describe` — an offset as messages show it.
-/

namespace OpcodeAtlas

/-- The formats that are told apart; `raw` is everything else. -/
inductive ContainerFormat where
  | pe | elf | machO | raw
deriving DecidableEq, Repr

/-- The name that messages use. -/
def ContainerFormat.name : ContainerFormat → String
  | .pe => "PE"
  | .elf => "ELF"
  | .machO => "Mach-O"
  | .raw => "raw"

/-- A named stretch of the file. -/
structure Section where
  name : String
  offset : Nat
  size : Nat
deriving DecidableEq, Repr

/-- Whether the offset lies in the section. -/
def Section.contains (s : Section) (offset : Nat) : Bool :=
  s.offset ≤ offset && offset - s.offset < s.size

/-- A format with the sections that the file lists, in file order. -/
structure Container where
  format : ContainerFormat
  sections : List Section
deriving DecidableEq, Repr

namespace Container

/-- The container of an image whose format is not known. -/
def raw : Container := ⟨.raw, []⟩

/-- The first section that holds the offset. -/
def sectionAt (c : Container) (offset : Nat) : Option Section :=
  c.sections.find? (·.contains offset)

/-- The offset, the format and, where there is one, the section with the distance from its start. -/
def describe (c : Container) (offset : Nat) : String :=
  match c.sectionAt offset with
  | some s =>
    s!"0x{Text.lowerHex offset} ({c.format.name} {s.name}+0x{Text.lowerHex (offset - s.offset)})"
  | none => s!"0x{Text.lowerHex offset} ({c.format.name})"

end Container

end OpcodeAtlas
