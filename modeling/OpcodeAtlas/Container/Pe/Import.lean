import OpcodeAtlas.Container.Pe.Address

/-!
# OpcodeAtlas.Container.Pe.Import — the imports of a PE image

The import directory lists libraries up to a record of zeros. Each library has a name, a table of what
is looked up in it and a table of addresses; both tables end with a zero.
-/

namespace OpcodeAtlas.Container.Pe

/-- The fields of the record of a library. -/
def libraryShape : RecordShape :=
  ⟨"ImportDirectoryEntry", [("import_lookup_table_rva", .number 4), ("time_date_stamp", .number 4),
    ("forwarder_chain", .number 4), ("name_rva", .number 4),
    ("import_address_table_rva", .number 4)]⟩

/-- Checks the look-ups from `offset` on, of which `count` were found so far. One that does not go by
number leads to a hint and a name; it is passed over when its address is mapped nowhere. -/
def checkLookups (image : Image) (m : Mapping) (word : Nat) :
    (fuel count offset : Nat) → Survey Unit
  | 0, _, _ => return
  | fuel + 1, count, offset => do
    let lookup ← image.field .lowFirst offset word
    if lookup = 0 then return
    else if Nat.pow 2 (8 * word - 1) ≤ lookup then
      checkLookups image m word fuel (count + 1) (offset + word)
    else
      let address := lookup % 0x8000_0000
      match m.offsetOf? address with
      | some hint =>
        let _ ← image.field .lowFirst hint 2
        let _ ← image.textAt (hint + 2)
        checkLookups image m word fuel (count + 1) (offset + word)
      | none =>
        Survey.warn "goblin::pe::import" s!"Entry {count} has bad RVA: 0x{Text.lowerHex address}"
        checkLookups image m word fuel count (offset + word)

/-- Checks the addresses from `offset` on. -/
def checkAddresses (image : Image) (word : Nat) : (fuel offset : Nat) → Except ContainerFault Unit
  | 0, _ => .ok ()
  | fuel + 1, offset => do
    if (← image.field .lowFirst offset word) = 0 then return
    checkAddresses image word fuel (offset + word)

/-- Checks the tables of a library. Look-ups stand in the table of addresses if they have none of
their own. -/
def checkLibrary (image : Image) (m : Mapping) (word : Nat) (library : Record) : Survey Unit := do
  let name ← m.nameAt image (library.number "name_rva")
  let addresses := library.number "import_address_table_rva"
  let lookups? := m.offsetOf? (library.number "import_lookup_table_rva")
  if let some lookups := lookups?.or (m.offsetOf? addresses) then
    checkLookups image m word image.size 0 lookups
  match m.offsetOf? addresses with
  | none => throw (.importAddressesUnmapped addresses name)
  | some offset => checkAddresses image word image.size offset

/-- Checks the libraries from `offset` on. -/
def checkLibraries (image : Image) (m : Mapping) (word : Nat) : (fuel offset : Nat) → Survey Unit
  | 0, _ => return
  | fuel + 1, offset => do
    let library ← image.record .lowFirst libraryShape offset
    if library.fields.all fun f => f.2 == .number 0 then return
    checkLibrary image m word library
    checkLibraries image m word fuel (offset + libraryShape.size)

/-- Checks an import directory. -/
def checkImports (image : Image) (m : Mapping) (isWide : Bool) (d : Directory) : Survey Unit :=
  match m.offsetOf? d.address with
  | none => throw (.importsUnmapped d.address)
  | some offset => checkLibraries image m (if isWide then 8 else 4) image.size offset

end OpcodeAtlas.Container.Pe
