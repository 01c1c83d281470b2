import OpcodeAtlas.Container.Archive
import OpcodeAtlas.Container.Elf
import OpcodeAtlas.Container.MachO
import OpcodeAtlas.Container.Pe
import OpcodeAtlas.Container.Pe.Object
import OpcodeAtlas.Container.Pe.Terse

/-!
# OpcodeAtlas.Container.Recognise — the container of an image

* `Container.survey` tells a format by the first bytes and reads its sections; an image without a known
  beginning is `raw`, and so are the formats whose sections do not matter; an image with a known
  beginning and a fault is refused with that fault;
* `Container.recognise` is what the survey finds, `Container.notes` what it tells on its way;
* `Container.ofImage` takes every refused image as `raw`.
-/

namespace OpcodeAtlas.Container

/-- The number of bytes without which no format is told. -/
def leastSize : Nat := 16

/-- Reads the container of an image. -/
def survey (image : Image) : Survey Container := do
  if image.size < leastSize then throw .tooSmall
  if image.startsWith Elf.magic then return ⟨.elf, ← Elf.sections image⟩
  if image.startsWith Archive.magic then
    Archive.check image
    return raw
  if image.startsWith Pe.magic then return ⟨.pe, ← Pe.sections image⟩
  let first ← image.field .lowFirst 0 2
  if first = Pe.terseMagic then
    Pe.checkTerse image
    return raw
  if Pe.objectMachines.contains first then
    Pe.checkObject image
    return raw
  match MachO.kind? image with
  | some kind =>
    MachO.check image kind
    return ⟨.machO, []⟩
  | none => return raw

/-- The container of an image, or why the container that it starts like could not be read. -/
def recognise (image : Image) : Except ContainerFault Container := (survey image).found

/-- What is told while the container is read. -/
def notes (image : Image) : List Note := (survey image).notes

/-- The container of an image; `raw` when there is none or it could not be read. -/
def ofImage (image : Image) : Container :=
  match recognise image with
  | .ok container => container
  | .error _ => raw

end OpcodeAtlas.Container
