import OpcodeAtlas.Dispatch.Decode
import OpcodeAtlas.Opcode.SlotNames

/-!
# OpcodeAtlas.Opcode.Map — from slots to names

Decoded cases are resolved against the names of handler slots into an `OpcodeMap`, which binds opcodes
to names in the order in which they were first recorded.

* `OpcodeMap.ofCases` — resolves cases, a later case overwriting an earlier one of the same opcode;
* `caseRecords` — what one case contributes, and what it contributes when everything is dumped;
* `OpcodeMap.sorted` — the bindings by ascending opcode.
-/

namespace OpcodeAtlas

/-- The names of opcodes. -/
abbrev OpcodeMap := OrderedTable Int String

/-- Added to the opcode of a named handler to file its bare slot beside it. -/
def diagnosticOffset : Int := 0x10000

/-- The name recorded for a case whose body does not tell its slot. -/
def unknownSlotName : String := "Index_unknown"

/-- The name recorded for a slot without a name. -/
def slotPlaceholder (slot : Int) : String := s!"Index_{slot}"

/-- What a case contributes to the map, in order. Only when everything is dumped does a case without
a name leave a record, and a named one a second record of its bare slot. -/
def caseRecords (names : SlotNames) (dumpAll : Bool) (c : Case) : List (Int × String) :=
  match c.slot with
  | none => if dumpAll then [(c.opcode, unknownSlotName)] else []
  | some slot =>
    match names.get? slot with
    | some name =>
      if dumpAll then
        [(c.opcode, name), (c.opcode + diagnosticOffset, slotPlaceholder slot)]
      else [(c.opcode, name)]
    | none => if dumpAll then [(c.opcode, slotPlaceholder slot)] else []

namespace OpcodeMap

/-- The map that the cases make, resolved one after the other. -/
def ofCases (names : SlotNames) (dumpAll : Bool) (cases : List Case) : OpcodeMap :=
  OrderedTable.ofList (cases.flatMap (caseRecords names dumpAll))

/-- The bindings by ascending opcode. -/
def sorted (m : OpcodeMap) : List (Int × String) :=
  m.toList.mergeSort fun a b => a.1 ≤ b.1

end OpcodeMap

end OpcodeAtlas
