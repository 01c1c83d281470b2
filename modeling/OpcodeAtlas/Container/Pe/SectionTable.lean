import OpcodeAtlas.Container.Basic
import OpcodeAtlas.Container.Pe.Header
import OpcodeAtlas.Decimal.Numeral
import OpcodeAtlas.Text.Quoted

/-!
# OpcodeAtlas.Container.Pe.SectionTable — the section table

The table has 40 bytes for each section. A name of up to eight bytes stands in the entry itself; behind
a slash stands instead the offset of a longer name in the table of strings, in decimal, or behind two
slashes in base 64. The strings follow the symbols; without symbols, their offsets count from the start
of the file.
-/

namespace OpcodeAtlas.Container.Pe

/-- The fields of an entry. -/
def entryShape : RecordShape :=
  ⟨"SectionTable", [("name", .window 8), ("virtual_size", .number 4),
    ("virtual_address", .number 4), ("size_of_raw_data", .number 4),
    ("pointer_to_raw_data", .number 4), ("pointer_to_relocations", .number 4),
    ("pointer_to_linenumbers", .number 4), ("number_of_relocations", .number 2),
    ("number_of_linenumbers", .number 2), ("characteristics", .number 4)]⟩

/-- An entry of the section table. -/
structure SectionEntry where
  record : Record
  /-- The name in the table of strings, for an entry that has its name there. -/
  longName : Option String
deriving DecidableEq, Repr

namespace SectionEntry

/-- The name; nothing if it is no text. -/
def name (e : SectionEntry) : String :=
  e.longName.getD ((Text.ofUtf8? ((e.record.bytes "name").takeWhile (· ≠ 0))).getD "")

/-- The entry as a section of the file. -/
def toSection (e : SectionEntry) : Section :=
  ⟨e.name, e.record.number "pointer_to_raw_data", e.record.number "size_of_raw_data"⟩

/-- The entry as messages show it. -/
def outline (e : SectionEntry) : Outline :=
  let longName : Outline := .option (e.longName.map fun name => .word (Text.quoted name))
  let fields := e.record.fields.map fun f => (f.1, Record.valueOutline f.2)
  .record e.record.name (fields.take 1 ++ [("real_name", longName)] ++ fields.drop 1)

end SectionEntry

/-! ## Names in the table of strings -/

/-- The value of a digit in base 64. -/
def digit64? (c : Char) : Option Nat :=
  if c.isUpper then some (c.toNat - 'A'.toNat)
  else if c.isLower then some (c.toNat - 'a'.toNat + 26)
  else if c.isDigit then some (c.toNat - '0'.toNat + 52)
  else if c = '+' then some 62
  else if c = '/' then some 63
  else none

/-- The number that digits in base 64 spell, the highest first. -/
def number64? (digits : String) : Option Nat :=
  digits.toList.foldlM (fun n c => (digit64? c).map (64 * n + ·)) 0

/-- The offset in the table of strings that a name stands for, if it stands for one. -/
def nameOffset? (name : List UInt8) : Except ContainerFault (Option Nat) :=
  let textFrom (start : Nat) : Except ContainerFault String :=
    match Text.ofUtf8? ((name.drop start).takeWhile (· ≠ 0)) with
    | some text => .ok text
    | none => .error (.notText (name.length - start))
  match name with
  | 0x2F :: 0x2F :: _ => do
    let digits ← textFrom 2
    match number64? digits with
    | some offset => return some offset
    | none => throw (.indirectName ("//" ++ digits) "base64 decoding failed")
  | 0x2F :: _ => do
    let digits ← textFrom 1
    match Decimal.readNumeral digits.toList with
    | .ok offset => return some offset
    | .error problem => throw (.indirectName ("/" ++ digits) problem.message)
  | _ => .ok none

/-! ## The table -/

/-- The entry at `start`, with the table of strings at `strings`. -/
def readEntry (image : Image) (strings start : Nat) : Except ContainerFault SectionEntry := do
  let record ← image.record .lowFirst entryShape start
  match ← nameOffset? (record.bytes "name") with
  | none => return ⟨record, none⟩
  | some offset => return ⟨record, some (← image.textAt (strings + offset))⟩

/-- Reads `count` entries from `start` on. -/
def readEntries (image : Image) (strings start count : Nat) : Survey (List SectionEntry) := do
  if image.size / entryShape.size < count then throw (.tooManyEntries count "sections")
  (List.range count).mapM fun i => do
    let entry ← readEntry image strings (start + entryShape.size * i)
    Survey.tellValue "goblin::pe::header" s!"({i}) " entry.outline
    return entry

/-- The number of bytes that a symbol takes. -/
def symbolSize : Nat := 18

/-- The section table at `start` behind a file header. The offset of the strings has 32 bits. -/
def readSectionTable (image : Image) (coff : Record) (start : Nat) :
    Survey (List SectionEntry) :=
  let symbols := coff.number "pointer_to_symbol_table"
  let strings := symbols + symbolSize * coff.number "number_of_symbol_table"
  readEntries image (strings % 0x1_0000_0000) start (coff.number "number_of_sections")

end OpcodeAtlas.Container.Pe
