import OpcodeAtlas.Container.Record
import OpcodeAtlas.Container.Survey

/-!
# OpcodeAtlas.Container.MachO.Command — load commands

A load command begins with its code and its size; what follows depends on the code. Commands of unknown
codes are passed over. The table of `CommandKind.all` gives the fields of every known command.
-/

namespace OpcodeAtlas.Container.MachO

/-- A kind of load command. -/
structure CommandKind where
  /-- The code without the bit that asks for a loader that knows it. -/
  code : Nat
  /-- Whether the code has that bit. -/
  isRequired : Bool
  name : String
  /-- The name of the kind in a note. -/
  label : String
  /-- The name of the record in a note. -/
  record : String
  /-- The fields behind code and size. -/
  fields : List (String × FieldShape)

namespace CommandKind

/-- Numbers of four bytes. -/
def words (names : List String) : List (String × FieldShape) := names.map (·, .number 4)

/-- Numbers of eight bytes. -/
def longs (names : List String) : List (String × FieldShape) := names.map (·, .number 8)

/-- The fields of a segment with addresses of so many bytes. -/
def segmentFields (word : Nat) : List (String × FieldShape) :=
  [("segname", .bytes 16), ("vmaddr", .number word), ("vmsize", .number word),
    ("fileoff", .number word), ("filesize", .number word)] ++
    words ["maxprot", "initprot", "nsects", "flags"]

/-- The fields of a command that points to data of the link editor. -/
def linkEdit : List (String × FieldShape) := words ["dataoff", "datasize"]

/-- The fields of a command that names a library. -/
def dylib : List (String × FieldShape) :=
  [("dylib", .group "Dylib" ["name", "timestamp", "current_version", "compatibility_version"])]

/-- The fields of a command that names a library of fixed place. -/
def fvmlib : List (String × FieldShape) :=
  [("fvmlib", .group "Fvmlib" ["name", "minor_version", "header_addr"])]

/-- The fields of the first and last routines, of so many bytes each. -/
def routines (word : Nat) : List (String × FieldShape) :=
  ["init_address", "init_module", "reserved1", "reserved2", "reserved3", "reserved4", "reserved5",
    "reserved6"].map (·, .number word)

/-- The fields of the tables for dynamic linking. -/
def dynamicTables : List (String × FieldShape) :=
  words ["rebase_off", "rebase_size", "bind_off", "bind_size", "weak_bind_off", "weak_bind_size",
    "lazy_bind_off", "lazy_bind_size", "export_off", "export_size"]

/-- The known kinds. The state of a thread is read apart. -/
def all : List CommandKind :=
  [⟨0x01, false, "LC_SEGMENT", "Segment32", "SegmentCommand32", segmentFields 4⟩,
    ⟨0x02, false, "LC_SYMTAB", "Symtab", "SymtabCommand",
      words ["symoff", "nsyms", "stroff", "strsize"]⟩,
    ⟨0x03, false, "LC_SYMSEG", "Symseg", "SymsegCommand", words ["offset", "size"]⟩,
    ⟨0x04, false, "LC_THREAD", "Thread", "ThreadCommand", words ["flavor", "count"]⟩,
    ⟨0x05, false, "LC_UNIXTHREAD", "Unixthread", "ThreadCommand", words ["flavor", "count"]⟩,
    ⟨0x06, false, "LC_LOADFVMLIB", "LoadFvmlib", "FvmlibCommand", fvmlib⟩,
    ⟨0x07, false, "LC_IDFVMLIB", "IdFvmlib", "FvmlibCommand", fvmlib⟩,
    ⟨0x08, false, "LC_IDENT", "Ident", "IdentCommand", []⟩,
    ⟨0x09, false, "LC_FVMFILE", "Fvmfile", "FvmfileCommand", words ["name", "header_addr"]⟩,
    ⟨0x0A, false, "LC_PREPAGE", "Prepage", "LoadCommandHeader", []⟩,
    ⟨0x0B, false, "LC_DYSYMTAB", "Dysymtab", "DysymtabCommand",
      words ["ilocalsym", "nlocalsym", "iextdefsym", "nextdefsym", "iundefsym", "nundefsym",
        "tocoff", "ntoc", "modtaboff", "nmodtab", "extrefsymoff", "nextrefsyms", "indirectsymoff",
        "nindirectsyms", "extreloff", "nextrel", "locreloff", "nlocrel"]⟩,
    ⟨0x0C, false, "LC_LOAD_DYLIB", "LoadDylib", "DylibCommand", dylib⟩,
    ⟨0x0D, false, "LC_ID_DYLIB", "IdDylib", "DylibCommand", dylib⟩,
    ⟨0x0E, false, "LC_LOAD_DYLINKER", "LoadDylinker", "DylinkerCommand", words ["name"]⟩,
    ⟨0x0F, false, "LC_ID_DYLINKER", "IdDylinker", "DylinkerCommand", words ["name"]⟩,
    ⟨0x10, false, "LC_PREBOUND_DYLIB", "PreboundDylib", "PreboundDylibCommand",
      words ["name", "nmodules", "linked_modules"]⟩,
    ⟨0x11, false, "LC_ROUTINES", "Routines32", "RoutinesCommand32", routines 4⟩,
    ⟨0x12, false, "LC_SUB_FRAMEWORK", "SubFramework", "SubFrameworkCommand", words ["umbrella"]⟩,
    ⟨0x13, false, "LC_SUB_UMBRELLA", "SubUmbrella", "SubUmbrellaCommand",
      words ["sub_umbrella"]⟩,
    ⟨0x14, false, "LC_SUB_CLIENT", "SubClient", "SubClientCommand", words ["client"]⟩,
    ⟨0x15, false, "LC_SUB_LIBRARY", "SubLibrary", "SubLibraryCommand", words ["sub_library"]⟩,
    ⟨0x16, false, "LC_TWOLEVEL_HINTS", "TwolevelHints", "TwolevelHintsCommand",
      words ["offset", "nhints"]⟩,
    ⟨0x17, false, "LC_PREBIND_CKSUM", "PrebindCksum", "PrebindCksumCommand", words ["cksum"]⟩,
    ⟨0x18, true, "LC_LOAD_WEAK_DYLIB", "LoadWeakDylib", "DylibCommand", dylib⟩,
    ⟨0x19, false, "LC_SEGMENT_64", "Segment64", "SegmentCommand64", segmentFields 8⟩,
    ⟨0x1A, false, "LC_ROUTINES_64", "Routines64", "RoutinesCommand64", routines 8⟩,
    ⟨0x1B, false, "LC_UUID", "Uuid", "UuidCommand", [("uuid", .bytes 16)]⟩,
    ⟨0x1C, true, "LC_RPATH", "Rpath", "RpathCommand", words ["path"]⟩,
    ⟨0x1D, false, "LC_CODE_SIGNATURE", "CodeSignature", "LinkeditDataCommand", linkEdit⟩,
    ⟨0x1E, false, "LC_SEGMENT_SPLIT_INFO", "SegmentSplitInfo", "LinkeditDataCommand", linkEdit⟩,
    ⟨0x1F, true, "LC_REEXPORT_DYLIB", "ReexportDylib", "DylibCommand", dylib⟩,
    ⟨0x20, false, "LC_LAZY_LOAD_DYLIB", "LazyLoadDylib", "DylibCommand", dylib⟩,
    ⟨0x21, false, "LC_ENCRYPTION_INFO", "EncryptionInfo32", "EncryptionInfoCommand32",
      words ["cryptoff", "cryptsize", "cryptid"]⟩,
    ⟨0x22, false, "LC_DYLD_INFO", "DyldInfo", "DyldInfoCommand", dynamicTables⟩,
    ⟨0x22, true, "LC_DYLD_INFO_ONLY", "DyldInfoOnly", "DyldInfoCommand", dynamicTables⟩,
    ⟨0x23, true, "LC_LOAD_UPWARD_DYLIB", "LoadUpwardDylib", "DylibCommand", dylib⟩,
    ⟨0x24, false, "LC_VERSION_MIN_MACOSX", "VersionMinMacosx", "VersionMinCommand",
      words ["version", "sdk"]⟩,
    ⟨0x25, false, "LC_VERSION_MIN_IPHONEOS", "VersionMinIphoneos", "VersionMinCommand",
      words ["version", "sdk"]⟩,
    ⟨0x26, false, "LC_FUNCTION_STARTS", "FunctionStarts", "LinkeditDataCommand", linkEdit⟩,
    ⟨0x27, false, "LC_DYLD_ENVIRONMENT", "DyldEnvironment", "DylinkerCommand", words ["name"]⟩,
    ⟨0x28, true, "LC_MAIN", "Main", "EntryPointCommand", longs ["entryoff", "stacksize"]⟩,
    ⟨0x29, false, "LC_DATA_IN_CODE", "DataInCode", "LinkeditDataCommand", linkEdit⟩,
    ⟨0x2A, false, "LC_SOURCE_VERSION", "SourceVersion", "SourceVersionCommand",
      longs ["version"]⟩,
    ⟨0x2B, false, "LC_DYLIB_CODE_SIGN_DRS", "DylibCodeSignDrs", "LinkeditDataCommand", linkEdit⟩,
    ⟨0x2C, false, "LC_ENCRYPTION_INFO_64", "EncryptionInfo64", "EncryptionInfoCommand64",
      words ["cryptoff", "cryptsize", "cryptid", "pad"]⟩,
    ⟨0x2D, false, "LC_LINKER_OPTION", "LinkerOption", "LinkeditDataCommand", linkEdit⟩,
    ⟨0x2E, false, "LC_LINKER_OPTIMIZATION_HINT", "LinkerOptimizationHint", "LinkeditDataCommand",
      linkEdit⟩,
    ⟨0x2F, false, "LC_VERSION_MIN_TVOS", "VersionMinTvos", "VersionMinCommand",
      words ["version", "sdk"]⟩,
    ⟨0x30, false, "LC_VERSION_MIN_WATCHOS", "VersionMinWatchos", "VersionMinCommand",
      words ["version", "sdk"]⟩,
    ⟨0x31, false, "LC_NOTE", "Note", "NoteCommand",
      ("data_owner", .bytes 16) :: longs ["offset", "size"]⟩,
    ⟨0x32, false, "LC_BUILD_VERSION", "BuildVersion", "BuildVersionCommand",
      words ["platform", "minos", "sdk", "ntools"]⟩,
    ⟨0x33, true, "LC_DYLD_EXPORTS_TRIE", "DyldExportsTrie", "LinkeditDataCommand", linkEdit⟩,
    ⟨0x34, true, "LC_DYLD_CHAINED_FIXUPS", "DyldChainedFixups", "LinkeditDataCommand", linkEdit⟩,
    ⟨0x35, true, "LC_FILESET_ENTRY", "FilesetEntry", "FilesetEntryCommand",
      longs ["vmaddr", "fileoff"] ++ words ["entry_id", "reserved"]⟩]

/-- The code as it stands in the file. -/
def fullCode (k : CommandKind) : Nat := if k.isRequired then 0x80000000 + k.code else k.code

/-- The kind with a code. -/
def ofCode? (code : Nat) : Option CommandKind := all.find? (·.fullCode = code)

/-- The name of a code. -/
def nameOf (code : Nat) : String := ((ofCode? code).map (·.name)).getD "LC_UNKNOWN"

end CommandKind

/-! ## Commands -/

/-- A load command. -/
structure Command where
  /-- Where it starts. -/
  start : Nat
  /-- The label of its kind. -/
  label : String
  record : Record
  /-- The registers of a thread. -/
  state : List Nat
deriving DecidableEq, Repr

/-- The number of bytes from the start of a command to the next one. -/
def Command.size (c : Command) : Nat := c.record.number "cmdsize"

/-- Whether the command holds the state of a thread. -/
def Command.hasState (c : Command) : Bool := c.record.name == "ThreadCommand"

/-- The number of registers that a state has room for. -/
def maxRegisters : Nat := 70

/-- The registers of a thread command at `start`. -/
def readState (image : Image) (order : ByteOrder) (start count : Nat) :
    Except ContainerFault (List Nat) := do
  let first := start + 16
  let available := image.size - first
  if available < 4 * count then throw (.threadStatePastEnd (4 * count) available)
  if maxRegisters < count then throw (.threadStateTooLong count)
  let registers ← (List.range count).mapM fun i => image.field order (first + 4 * i) 4
  return registers ++ List.replicate (maxRegisters - count) 0

/-- The load command at `start`. -/
def readCommand (image : Image) (order : ByteOrder) (start : Nat) :
    Except ContainerFault Command := do
  let headFields := CommandKind.words ["cmd", "cmdsize"]
  let head ← image.record order ⟨"LoadCommandHeader", headFields⟩ start
  let code := head.number "cmd"
  let available := image.size - start
  if available < head.number "cmdsize" then
    throw (.commandPastEnd (CommandKind.nameOf code) (head.number "cmdsize") available)
  match CommandKind.ofCode? code with
  | none => return ⟨start, "Unimplemented", head, []⟩
  | some kind =>
    let record ← image.record order ⟨kind.record, headFields ++ kind.fields⟩ start
    let command : Command := ⟨start, kind.label, record, []⟩
    if command.hasState then
      return { command with state := ← readState image order start (record.number "count") }
    return command

/-- A load command as messages show it. -/
def Command.outline (c : Command) : Outline :=
  let fields := c.record.fields.map fun f => (f.1, Record.valueOutline f.2)
  let state := if c.hasState then [("thread_state", .numbers c.state)] else []
  .record "LoadCommand" [("offset", .number c.start),
    ("command", .call c.label [.record c.record.name (fields ++ state)])]

end OpcodeAtlas.Container.MachO
