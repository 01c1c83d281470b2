import OpcodeAtlas.Container.Elf.Section
import OpcodeAtlas.Container.Survey

/-!
# OpcodeAtlas.Container.Elf.Dynamic — dynamic linking

One segment lists what a loader needs for dynamic linking, as tags with a value each: tables of names,
of relocations and of symbols, by their addresses. The number of symbols is not stated; it follows from
a hash table and from the relocations.
-/

namespace OpcodeAtlas.Container.Elf

/-- The type of the segments that are loaded. -/
def typeLoaded : Nat := 1

/-- The type of the segment with the list. -/
def typeDynamic : Nat := 2

/-! ## The list -/

/-- The tags of the list that are followed. -/
inductive DynamicTag where
  | needed | relocatedLinksSize | hash | names | symbols | addends | addendsSize | namesSize
  | relocations | relocationsSize | linksKind | links | filteredHash
deriving DecidableEq, Repr

/-- The number that stands for a tag. -/
def DynamicTag.number : DynamicTag → Nat
  | .needed => 1
  | .relocatedLinksSize => 2
  | .hash => 4
  | .names => 5
  | .symbols => 6
  | .addends => 7
  | .addendsSize => 8
  | .namesSize => 10
  | .relocations => 17
  | .relocationsSize => 18
  | .linksKind => 20
  | .links => 23
  | .filteredHash => 0x6FFFFEF5

/-- The list: each tag with its value, up to a tag of zero. -/
structure DynamicList where
  entries : List (Nat × Nat)
  segments : List Record

namespace DynamicList

/-- The offset in the file of an address in memory. -/
def offsetOf? (d : DynamicList) (address : Nat) : Option Nat := do
  let s ← d.segments.find? fun s =>
    s.number "type" = typeLoaded ∧ s.number "address" ≤ address ∧
      address - s.number "address" < s.number "memory_size"
  Offset.checkedAdd (s.number "offset") (address - s.number "address")

/-- The last value of a tag. -/
def value? (d : DynamicList) (tag : DynamicTag) : Option Nat :=
  (d.entries.reverse.find? (·.1 = tag.number)).map (·.2)

/-- The last value of a tag that holds a number; zero without the tag. -/
def numberOf (d : DynamicList) (tag : DynamicTag) : Nat := (d.value? tag).getD 0

/-- The offset that the last value of a tag leads to. -/
def target? (d : DynamicList) (tag : DynamicTag) : Option Nat :=
  (d.value? tag).bind d.offsetOf?

/-- The offset that the last value of a tag leads to; zero if there is none. -/
def targetOf (d : DynamicList) (tag : DynamicTag) : Nat := (d.target? tag).getD 0

end DynamicList

/-- Reads at most `count` entries up to a tag of zero. -/
def readEntries (image : Image) (f : Format) : (count offset : Nat) →
    Except ContainerFault (List (Nat × Nat))
  | 0, _ => .ok []
  | count + 1, offset => do
    let word := f.wordClass.word
    let tag ← image.field f.order offset word
    let value ← image.field f.order (offset + word) word
    if tag = 0 then return [(tag, value)]
    return (tag, value) :: (← readEntries image f count (offset + 2 * word))

/-- The list of the first segment that has one. -/
def readDynamic? (image : Image) (f : Format) (segments : List Record) :
    Except ContainerFault (Option DynamicList) := do
  match segments.find? (·.number "type" = typeDynamic) with
  | none => return none
  | some s =>
    let offset := s.number "offset"
    let size := s.number "file_size"
    let _ ← (image.window offset size).mapError fun _ => .dynamicPastEnd offset size
    return some ⟨← readEntries image f (size / (2 * f.wordClass.word)) offset, segments⟩

/-! ## Relocations -/

/-- The number of bytes of a relocation. -/
def relocationSize (f : Format) (withAddend : Bool) : Nat :=
  (if withAddend then 3 else 2) * f.wordClass.word

/-- The symbols that the relocations of a table refer to. -/
def relocatedSymbols (image : Image) (f : Format) (withAddend : Bool) (offset size : Nat) :
    Except ContainerFault (List Nat) := do
  if size = 0 then return []
  let _ ← image.window offset size
  let unit := relocationSize f withAddend
  (List.range (size / unit)).mapM fun i => do
    let info ← image.field f.order (offset + unit * i + f.wordClass.word) f.wordClass.word
    return match f.wordClass with
      | .bits32 => info / 0x100
      | .bits64 => info / 0x1_0000_0000

/-! ## The number of symbols -/

/-- The greatest of `count` numbers of four bytes from `offset` on, or `most`. -/
def greatest (image : Image) (order : ByteOrder) (most : Nat) : (count offset : Nat) →
    Except ContainerFault Nat
  | 0, _ => .ok most
  | count + 1, offset => do
    greatest image order (max most (← image.field order offset 4)) count (offset + 4)

/-- The number of the symbol behind the end of a chain that holds the symbol `symbol` at `offset`. -/
def chainEnd (image : Image) (order : ByteOrder) : (fuel symbol offset : Nat) →
    Except ContainerFault Nat
  | 0, symbol, _ => .ok symbol
  | fuel + 1, symbol, offset => do
    if (← image.field order offset 4) % 2 = 1 then return symbol + 1
    chainEnd image order fuel (symbol + 1) (offset + 4)

/-- The number of symbols that a hash table with a filter tells: the symbols of a bucket follow each
other, so that the last of them stands at the end of the last chain. -/
def filteredHashSymbols (image : Image) (f : Format) (offset : Nat) :
    Except ContainerFault Nat := do
  let buckets ← image.field f.order offset 4
  let first ← image.field f.order (offset + 4) 4
  let filters ← image.field f.order (offset + 8) 4
  if buckets = 0 ∨ first = 0 ∨ filters = 0 then throw (.hashTable buckets first filters)
  let bucketsStart := offset + 16 + filters * f.wordClass.word
  -- No more buckets are read than the image has room for; one more is a fault.
  let last ← greatest image f.order 0 (min buckets (image.size + 1)) bucketsStart
  if last < first then return 0
  chainEnd image f.order image.size last (bucketsStart + buckets * 4 + (last - first) * 4)

/-- Whether the numbers of a plain hash table have the width of a word. -/
def hasWideHash (f : Format) (machine : Nat) : Bool :=
  f.wordClass = .bits64 ∧ (machine = 0x9026 ∨ machine = 22)

/-- The number of symbols that a plain hash table tells. -/
def hashSymbols (image : Image) (f : Format) (machine offset : Nat) :
    Except ContainerFault Nat :=
  image.field f.order (Offset.saturatingAdd offset 4) (if hasWideHash f machine then 8 else 4)

/-- The number of symbols that the hash tables tell; none without a table. -/
def hashedSymbols (image : Image) (f : Format) (machine : Nat) (d : DynamicList) :
    Except ContainerFault Nat :=
  match d.target? .filteredHash, d.target? .hash with
  | some offset, _ => filteredHashSymbols image f offset
  | none, some offset => hashSymbols image f machine offset
  | none, none => .ok 0

/-! ## All of it -/

/-- Checks what the list leads to. -/
def checkDynamic (image : Image) (f : Format) (machine : Nat) (d : DynamicList) : Survey Unit := do
  let names ← StringTable.read image (d.targetOf .names) (d.numberOf .namesSize)
  for (tag, value) in d.entries do
    if tag = DynamicTag.needed.number ∧ (names.at? value).isNone then
      Survey.warn "goblin::elf::dynamic" s!"Invalid DT_NEEDED {value}"
  let linksHaveAddend := d.numberOf .linksKind = DynamicTag.addends.number
  let withAddend ←
    relocatedSymbols image f true (d.targetOf .addends) (d.numberOf .addendsSize)
  let plain ←
    relocatedSymbols image f false (d.targetOf .relocations) (d.numberOf .relocationsSize)
  let links ←
    relocatedSymbols image f linksHaveAddend (d.targetOf .links) (d.numberOf .relocatedLinksSize)
  let hashed ← hashedSymbols image f machine d
  let relocated := (withAddend ++ plain ++ links).foldl max 0
  let count := if relocated = 0 then hashed else max hashed (relocated + 1)
  checkSymbols image f (d.targetOf .symbols) count

end OpcodeAtlas.Container.Elf
