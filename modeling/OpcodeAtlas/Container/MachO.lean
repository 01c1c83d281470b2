import OpcodeAtlas.Container.MachO.Command

/-!
# OpcodeAtlas.Container.MachO — recognising Mach-O images

A Mach-O image is known by its first four bytes, which also tell its word class and byte order. Its
sections are not listed; its header, its load commands and what they lead to must be there. An image
with programs for several processors is not looked into.
-/

namespace OpcodeAtlas.Container.MachO

/-- How the first bytes of a Mach-O image are to be understood. -/
inductive Kind where
  /-- One program: its byte order, and whether addresses have 64 bits. -/
  | program (order : ByteOrder) (isWide : Bool)
  /-- Several programs, one for each processor. -/
  | universal
deriving DecidableEq, Repr

/-- The kind that the first four bytes announce. -/
def kind? (image : Image) : Option Kind :=
  match image.slice 0 4 with
  | [0xFE, 0xED, 0xFA, 0xCE] => some (.program .highFirst false)
  | [0xFE, 0xED, 0xFA, 0xCF] => some (.program .highFirst true)
  | [0xCE, 0xFA, 0xED, 0xFE] => some (.program .lowFirst false)
  | [0xCF, 0xFA, 0xED, 0xFE] => some (.program .lowFirst true)
  | [0xCA, 0xFE, 0xBA, 0xBE] => some .universal
  | _ => none

/-! ## The header -/

/-- The fields of the header of a program. -/
def headerShape (isWide : Bool) : RecordShape :=
  ⟨"Header", CommandKind.words (["magic", "cputype", "cpusubtype", "filetype", "ncmds",
    "sizeofcmds", "flags"] ++ if isWide then ["reserved"] else [])⟩

/-- The least number of bytes of an image that can have a header of either width. -/
def leastSize : Nat := (headerShape true).size

/-- What a type of file is called. -/
def fileTypeName : Nat → String
  | 1 => "OBJECT"
  | 2 => "EXECUTE"
  | 3 => "FVMLIB"
  | 4 => "CORE"
  | 5 => "PRELOAD"
  | 6 => "DYLIB"
  | 7 => "DYLINKER"
  | 8 => "BUNDLE"
  | 9 => "DYLIB_STUB"
  | 10 => "DSYM"
  | 11 => "KEXT_BUNDLE"
  | _ => "UNKNOWN FILETYPE"

/-- The header as messages show it; the highest byte of the subtype holds features and is left out. -/
def headerOutline (header : Record) : Outline :=
  let hex (n : Nat) : Outline := .word ("0x" ++ Text.lowerHex n)
  .record "Header" [("magic", hex (header.number "magic")),
    ("cputype", .number (header.number "cputype")),
    ("cpusubtype", hex (header.number "cpusubtype" % 0x100_0000)),
    ("filetype", .word ("\"" ++ fileTypeName (header.number "filetype") ++ "\"")),
    ("ncmds", .number (header.number "ncmds")),
    ("sizeofcmds", .number (header.number "sizeofcmds")),
    ("flags", hex (header.number "flags")), ("reserved", hex (header.number "reserved"))]

/-! ## What commands lead to -/

/-- The processors whose registers are known. -/
def knownProcessors : List Nat := [7, 0x01000007, 12, 0x0100000C, 0x0200000C, 18]

/-- Leaves a note if a table for dynamic linking is not there; the image may do without. -/
def noteTable (image : Image) (source : String) (offset size : Nat) : Survey Unit := do
  if image.size < offset + size then
    Survey.warn source "Invalid `DyldInfo` `command`."

/-- Checks what a command leads to; `threadSeen` tells whether a command with the state of the first
thread came before. -/
def checkCommand (image : Image) (processor : Nat) (threadSeen : Bool) (c : Command) :
    Survey Unit := do
  let value := c.record.number
  match c.label with
  | "Segment32" | "Segment64" =>
    if value "filesize" ≠ 0 then
      let _ ← image.window (value "fileoff") (value "filesize")
  | "Symtab" =>
    if value "stroff" < value "symoff" then throw .symbolsBehindTexts
    let _ ← image.window (value "symoff") 0
  | "LoadDylib" | "LoadUpwardDylib" | "ReexportDylib" | "LoadWeakDylib" | "LazyLoadDylib"
  | "IdDylib" =>
    let _ ← image.textAt (c.start + value "name")
  | "Rpath" =>
    let _ ← image.textAt (c.start + value "path")
  | "DyldInfo" | "DyldInfoOnly" =>
    noteTable image "goblin::mach::exports" (value "export_off") (value "export_size")
    noteTable image "goblin::mach::imports" (value "bind_off") (value "bind_size")
    noteTable image "goblin::mach::imports" (value "lazy_bind_off") (value "lazy_bind_size")
  | "DyldExportsTrie" =>
    noteTable image "goblin::mach::exports" (value "dataoff") (value "datasize")
  | "Unixthread" =>
    if !threadSeen ∧ !knownProcessors.contains processor then
      throw (.processorUnknown processor)
  | _ => return

/-- Whether the command is the segment with the code of the program. -/
def isTextSegment (c : Command) : Bool :=
  (c.label == "Segment32" || c.label == "Segment64") &&
    (c.record.bytes "segname").take 7 == Text.utf8 "__TEXT\x00"

/-- Reads `count` commands that follow each other from `start` on, behind those that were read. -/
def readCommands (image : Image) (order : ByteOrder) (processor : Nat) :
    (count start : Nat) → (seen : Array Command) → Survey (Array Command)
  | 0, _, seen => return seen
  | count + 1, start, seen => do
    let command ← readCommand image order start
    Survey.tell "goblin::mach" s!"{seen.size} - {command.outline.inline}"
    checkCommand image processor (seen.any (·.label == "Unixthread")) command
    readCommands image order processor count (start + command.size) (seen.push command)

/-- Checks that a program with a main entry has a segment to enter. -/
def checkEntry (commands : Array Command) : Except ContainerFault Unit :=
  match commands.find? (·.label == "Main") with
  | none => .ok ()
  | some main =>
    if commands.any isTextSegment then .ok ()
    else .error (.noTextSegment (main.record.number "entryoff"))

/-- Checks a program. -/
def checkProgram (image : Image) (order : ByteOrder) (isWide : Bool) : Survey Unit := do
  let container := if isWide then "Big" else "Little"
  let endian := match order with
    | .lowFirst => "Little"
    | .highFirst => "Big"
  let ctx : Outline := .record "Ctx" [("container", .word container), ("le", .word endian)]
  Survey.tell "goblin::mach" s!"Ctx: {ctx.inline}"
  if image.size < leastSize then throw .headerCutShort
  let header ← image.record order (headerShape isWide) 0
  Survey.tell "goblin::mach" s!"Mach-o header: {(headerOutline header).inline}"
  let count := header.number "ncmds"
  let size := header.number "sizeofcmds"
  if size / 8 < count ∨ image.size < size then throw (.tooManyEntries count "load commands")
  let start := (headerShape isWide).size
  let commands ← readCommands image order (header.number "cputype") count start #[]
  checkEntry commands

/-- Checks an image of some kind. -/
def check (image : Image) : Kind → Survey Unit
  | .program order isWide => checkProgram image order isWide
  | .universal => return

end OpcodeAtlas.Container.MachO
