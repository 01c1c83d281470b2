import OpcodeAtlas.Container.Pe.Import

/-!
# OpcodeAtlas.Container.Pe.Directory — what the directories lead to

Some directories of the optional header are followed, and make the image no PE image if they lead
nowhere: imports, debug data, the exceptions of one machine, and certificates, in this order.
-/

namespace OpcodeAtlas.Container.Pe

/-! ## Debug data -/

/-- The fields of a record of debug data. -/
def debugShape : RecordShape :=
  ⟨"ImageDebugDirectory", [("characteristics", .number 4), ("time_date_stamp", .number 4),
    ("major_version", .number 2), ("minor_version", .number 2), ("data_type", .number 4),
    ("size_of_data", .number 4), ("address_of_raw_data", .number 4),
    ("pointer_to_raw_data", .number 4)]⟩

/-- The type of debug data that leads to a file of its own. -/
def codeViewType : Nat := 2

/-- A form of debug data that names a file: its magic number, and the widths of the parts between the
magic number and the name. -/
structure CodeViewForm where
  magic : Nat
  parts : List Nat

/-- The newer form. -/
def codeView70 : CodeViewForm := ⟨0x53445352, [16, 4]⟩

/-- The older form. -/
def codeView20 : CodeViewForm := ⟨0x3031424E, [4, 4, 4]⟩

/-- The number of bytes in front of the name. -/
def CodeViewForm.headSize (form : CodeViewForm) : Nat := form.parts.foldl (· + ·) 4

/-- Checks that parts of these widths follow each other from `offset` on. -/
def checkParts (image : Image) (offset : Nat) : List Nat → Except ContainerFault Unit
  | [] => .ok ()
  | width :: rest => do
    let _ ← image.window offset width
    checkParts image (offset + width) rest

/-- Checks debug data at `offset` against one of the forms; data of another form is not checked. -/
def checkCodeView (image : Image) (entry : Record) (offset : Nat) (form : CodeViewForm) :
    Except ContainerFault Unit := do
  let size := entry.number "size_of_data"
  if size < form.headSize then throw (.debugSize size)
  if (← image.field .lowFirst offset 4) = form.magic then
    checkParts image (offset + 4) form.parts
    if image.size < offset + size then throw (.debugPastEnd entry.outline.inline)

/-- Checks a debug directory. -/
def checkDebug (image : Image) (m : Mapping) (d : Directory) : Except ContainerFault Unit := do
  match m.offsetOf? d.address with
  | none => throw (.debugUnmapped d.address)
  | some offset =>
    let entry ← image.record .lowFirst debugShape offset
    if entry.number "data_type" = codeViewType then
      [codeView70, codeView20].forM
        (checkCodeView image entry (entry.number "pointer_to_raw_data"))

/-! ## Exceptions -/

/-- The number of bytes that the record of a function takes. -/
def functionSize : Nat := 12

/-- Checks an exception directory. -/
def checkExceptions (m : Mapping) (d : Directory) : Except ContainerFault Unit :=
  if d.size % functionSize ≠ 0 then .error (.exceptionSize d.size)
  else match m.offsetOf? d.address with
    | none => .error (.exceptionsUnmapped d.address)
    | some offset => if offset % 4 = 0 then .ok () else .error (.offsetPastEnd offset)

/-! ## Certificates -/

/-- The fields in front of a certificate. -/
def certificateShape : RecordShape :=
  ⟨"AttributeCertificateHeader", [("length", .number 4), ("revision", .number 2),
    ("certificate_type", .number 2)]⟩

/-- Checks the certificates from `offset` up to `stop`, each at a multiple of eight. -/
def checkCertificates (image : Image) (stop : Nat) : (fuel offset : Nat) →
    Except ContainerFault Unit
  | 0, _ => .ok ()
  | fuel + 1, offset => do
    if stop ≤ offset then return
    let head ← image.record .lowFirst certificateShape offset
    let start := offset + certificateShape.size
    let size := head.number "length" - certificateShape.size
    if image.size < start + size then throw (.certificatePastEnd size)
    if head.number "revision" ∉ [0x100, 0x200] then throw .certificateRevision
    if head.number "certificate_type" ∉ [1, 2, 3, 4] then throw .certificateType
    checkCertificates image stop fuel (roundUp 8 (start + size))

/-- Checks a certificate directory, whose address is an offset. -/
def checkCertificateTable (image : Image) (d : Directory) : Except ContainerFault Unit :=
  let stop := d.address + d.size
  if image.size < stop then .error .certificatesPastEnd
  else checkCertificates image stop image.size d.address

/-! ## All of them -/

/-- The directory at an index of the list. -/
def OptionalHeader.directory? (h : OptionalHeader) (index : Nat) : Option Directory :=
  (h.directories[index]?).join

/-- Follows the directories of an optional header on a machine. -/
def checkDirectories (image : Image) (entries : List SectionEntry) (machine : Nat)
    (h : OptionalHeader) : Survey Unit := do
  let m : Mapping := ⟨h.windows.number "file_alignment", entries⟩
  let source := "goblin::pe"
  let entry := h.standard.number "address_of_entry_point"
  let base := h.windows.number "image_base"
  Survey.tell source
    s!"entry 0x{Text.lowerHex entry} image_base 0x{Text.lowerHex base} is_64: {h.isWide}"
  Survey.tellValue source "exports: " (.list [])
  if let some d := h.directory? 1 then checkImports image m h.isWide d
  Survey.tellValue source "imports: " (.list [])
  if let some d := h.directory? 6 then checkDebug image m d
  if machine = machineX64 then
    Survey.tellValue source "exception data: " (.option none)
    if let some d := h.directory? 3 then checkExceptions m d
  if let some d := h.directory? 4 then checkCertificateTable image d

end OpcodeAtlas.Container.Pe
