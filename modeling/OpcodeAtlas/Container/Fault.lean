import OpcodeAtlas.Text.Hex

/-!
# OpcodeAtlas.Container.Fault — why an image is not what it starts like

An image that begins with the bytes of a known format can still fail to be of that format. The fault
says at which part it failed; the first part in reading order counts.
-/

namespace OpcodeAtlas

/-- Why an image that starts like a container is none. -/
inductive ContainerFault where
  /-- The image is too short to tell. -/
  | tooSmall
  /-- A value starts past the end of the bytes that it is looked for in. -/
  | offsetPastEnd (offset : Nat)
  /-- A value is cut off by the end of the bytes. -/
  | cutShort (width available : Nat)
  /-- The bytes from which a text was taken are no text. -/
  | notText (available : Nat)
  /-- A magic number is not one of the known ones. -/
  | otherMagic (found : Nat)
  /-- The file cannot hold as many entries as its header lists. -/
  | tooManyEntries (count : Nat) (kind : String)
  /-- A table of texts reaches past the end. -/
  | textsPastEnd (offset size available : Nat)

  -- PE
  | noHeaderPointer (offset : Nat)
  | noSignature (offset : Nat)
  | otherSignature (found : Nat)
  | noStub (offset : Nat)
  | tooManyDirectories (count : Nat)
  /-- A section name that should be the offset of the name is no number. -/
  | indirectName (name problem : String)
  | importsUnmapped (address : Nat)
  | nameUnmapped (address : Nat) (sections : String)
  | importAddressesUnmapped (address : Nat) (name : String)
  | debugUnmapped (address : Nat)
  | debugSize (size : Nat)
  | debugPastEnd (entry : String)
  | exceptionSize (size : Nat)
  | exceptionsUnmapped (address : Nat)
  | certificatesPastEnd
  | certificatePastEnd (size : Nat)
  | certificateRevision
  | certificateType

  -- ELF
  | wordClass (found : Nat)
  | byteOrder (found : Nat)
  | sectionPastEnd (name offset size : Nat) (overflow : Bool)
  | sectionPastMemory (name address size : Nat)
  | tooManySymbols (offset count : Nat)
  | dynamicPastEnd (offset size : Nat)
  | hashTable (buckets chains filters : Nat)

  -- Mach-O
  | headerCutShort
  | commandPastEnd (command : String) (size available : Nat)
  | threadStatePastEnd (size available : Nat)
  | threadStateTooLong (count : Nat)
  | processorUnknown (processor : Nat)
  | symbolsBehindTexts
  | noTextSegment (entry : Nat)

  -- Archives
  | memberSize (problem member : String)
deriving DecidableEq, Repr

namespace ContainerFault

/-- What contradicts the format, for a fault of the content. -/
def contradiction? : ContainerFault → Option String
  | .tooSmall => some "Object is too small."
  | .textsPastEnd offset size available =>
    some (s!"Strtable size ({size}) + offset ({offset}) is out of bounds for " ++
      s!"{available} #bytes. Overflowed: {decide (0x1_0000_0000_0000_0000 ≤ offset + size)}")
  | .noHeaderPointer offset =>
    some s!"cannot parse PE header pointer (offset 0x{Text.lowerHex offset})"
  | .noSignature offset =>
    some s!"cannot parse PE header signature (offset 0x{Text.lowerHex offset})"
  | .otherSignature found =>
    some s!"PE header is malformed (signature 0x{Text.lowerHex found})"
  | .noStub offset => some s!"cannot parse DOS stub (offset 0x{Text.lowerHex offset})"
  | .tooManyDirectories count =>
    some (s!"data directory count ({count}) is greater than maximum number of " ++
      "data directories (16)")
  | .indirectName name problem => some s!"Invalid indirect section name {name}: {problem}"
  | .importsUnmapped address =>
    some ("Cannot create ImportData; cannot map import_directory_table_rva " ++
      s!"0x{Text.lowerHex address} into offset")
  | .nameUnmapped address sections =>
    some s!"Cannot find name from rva 0x{Text.lowerHex address} in sections: {sections}"
  | .importAddressesUnmapped address name =>
    some ("Cannot map import_address_table_rva " ++
      s!"0x{Text.lowerHex address} into offset for {name}")
  | .debugUnmapped address =>
    some s!"Cannot map ImageDebugDirectory rva 0x{Text.lowerHex address} into offset"
  | .debugSize size => some s!"ImageDebugDirectory size of data seems wrong: {size}"
  | .debugPastEnd entry => some s!"ImageDebugDirectory seems corrupted: {entry}"
  | .exceptionsUnmapped address =>
    some s!"cannot map exception_rva (0x{Text.lowerHex address}) into offset"
  | .certificatesPastEnd =>
    some "End of attribute certificates table is after the end of the PE binary"
  | .certificatePastEnd size =>
    some s!"Unable to extract certificate. Probably cert_size:{size} is malformed"
  | .certificateRevision => some "Invalid certificate attribute revision"
  | .certificateType => some "Invalid attribute certificate type"
  | .wordClass found => some s!"invalid ELF class {Text.lowerHex found}"
  | .byteOrder found => some s!"invalid ELF endianness DATA type {Text.lowerHex found}"
  | .sectionPastEnd name offset size overflow =>
    some (s!"Section {name} size ({offset}) + offset ({size}) is out of bounds. " ++
      s!"Overflowed: {overflow}")
  | .sectionPastMemory name address size =>
    some (s!"Section {name} size ({address}) + addr ({size}) is out of bounds. " ++
      "Overflowed: true")
  | .tooManySymbols offset count =>
    some s!"Too many ELF symbols (offset 0x{Text.lowerHex offset}, count {count})"
  | .dynamicPastEnd offset size =>
    some (s!"Invalid PT_DYNAMIC size (offset 0x{Text.lowerHex offset}, " ++
      s!"filesz 0x{Text.lowerHex size})")
  | .hashTable buckets chains filters =>
    some (s!"Invalid DT_GNU_HASH: buckets_num={buckets} min_chain={chains} " ++
      s!"bloom_size={filters}")
  | .headerCutShort => some "bytes size is smaller than a Mach-o header"
  | .commandPastEnd command size available =>
    some s!"{command} has size larger than remainder of binary: {size} > {available}"
  | .threadStatePastEnd size available =>
    some (s!"thread command specifies {size} bytes for thread state but has only " ++
      toString available)
  | .threadStateTooLong count =>
    some s!"thread command specifies {count} longs for thread state but we handle only 70"
  | .processorUnknown processor =>
    some s!"unable to find instruction pointer for cputype {processor}"
  | .symbolsBehindTexts => some "invalid symbol table offset"
  | .noTextSegment entry =>
    some s!"image specifies LC_MAIN offset {entry} but has no __TEXT segment"
  | .memberSize problem member => some s!"{problem} Bad file_size in {member}"
  | _ => none

/-- The wording of a container fault. -/
def message (fault : ContainerFault) : String :=
  match fault with
  | .offsetPastEnd offset => s!"bad offset {offset}"
  | .cutShort width available => s!"type is too big ({width}) for {available}"
  | .notText available => s!"bad input invalid utf8 ({available})"
  | .exceptionSize size => s!"bad input invalid exception directory table size ({size})"
  | .otherMagic found => s!"Invalid magic number: 0x{Text.lowerHex found}"
  | .tooManyEntries count kind => s!"Buffer is too short for {count} {kind}"
  | _ => "Malformed entity: " ++ fault.contradiction?.getD ""

end ContainerFault

end OpcodeAtlas
