import Mathlib.Data.List.Basic
import OpcodeAtlas.Opcode.Map
import OpcodeAtlas.Proofs.Table.Replay

/-!
# OpcodeAtlas.Proofs.Opcode.Plain — the map of named cases

Unless everything is dumped, a case leaves at most one record: its own opcode with the name of its
slot. Cases of distinct opcodes then leave a map that binds what the cases say and nothing else.

* `Case.binding?` — what a named case is bound to;
* `caseRecords_plain`, `mem_caseRecords_plain` — the record of one case;
* `pairwise_bindings` — bindings of cases by ascending opcode ascend;
* `toList_ofCases_plain` — the map holds one binding for each named case, in the order of the cases;
* `get?_ofCases_plain` — a look-up finds the name of a case.
-/

namespace OpcodeAtlas

variable {names : SlotNames}

/-- The opcode of a named case with its name. -/
def Case.binding? (names : SlotNames) (c : Case) : Option (Int × String) := do
  let slot ← c.slot
  let name ← names.get? slot
  return (c.opcode, name)

theorem Case.binding?_eq_some_iff {c : Case} {opcode : Int} {name : String} :
    c.binding? names = some (opcode, name) ↔
      c.opcode = opcode ∧ ∃ slot, c.slot = some slot ∧ names.get? slot = some name := by
  unfold binding?
  cases hslot : c.slot with
  | none => simp
  | some slot => cases hname : names.get? slot <;> simp [hname, and_comm]

/-- A case leaves a plain record if it is named, and else none. -/
theorem caseRecords_plain (names : SlotNames) :
    caseRecords names false = fun c => (c.binding? names).toList := by
  funext c
  unfold caseRecords Case.binding?
  cases hslot : c.slot with
  | none => rfl
  | some slot => cases hname : names.get? slot <;> simp [hname]

/-- A plain record is the opcode of a case with the name of its slot. -/
theorem mem_caseRecords_plain {c : Case} {opcode : Int} {name : String} :
    (opcode, name) ∈ caseRecords names false c ↔
      c.opcode = opcode ∧ ∃ slot, c.slot = some slot ∧ names.get? slot = some name := by
  rw [caseRecords_plain, Option.mem_toList, Case.binding?_eq_some_iff]

variable {cases : List Case} (hascending : cases.Pairwise fun c c' => c.opcode < c'.opcode)
include hascending

/-- Bindings of cases by ascending opcode ascend. -/
theorem pairwise_bindings :
    (cases.filterMap (Case.binding? names)).Pairwise fun b b' => b.1 < b'.1 := by
  rw [List.pairwise_filterMap]
  refine hascending.imp ?_
  rintro c c' hlt ⟨opcode, name⟩ hb ⟨opcode', name'⟩ hb'
  rw [← (Case.binding?_eq_some_iff.1 hb).1, ← (Case.binding?_eq_some_iff.1 hb').1]
  exact hlt

namespace OpcodeMap

/-- Of cases by ascending opcode, the map holds one binding for each named case and no other. -/
theorem toList_ofCases_plain :
    (ofCases names false cases).toList = cases.filterMap (Case.binding? names) := by
  rw [ofCases, caseRecords_plain, ← List.filterMap_eq_flatMap_toList]
  apply OrderedTable.toList_ofList_of_nodup
  rw [List.nodup_iff_pairwise_ne, List.pairwise_map]
  exact (pairwise_bindings hascending).imp fun hlt => Int.ne_of_lt hlt

/-- Of cases by ascending opcode, a look-up finds the name of the case with the opcode. -/
theorem get?_ofCases_plain {opcode : Int} {name : String} :
    (ofCases names false cases).get? opcode = some name ↔
      ∃ c ∈ cases, c.opcode = opcode ∧
        ∃ slot, c.slot = some slot ∧ names.get? slot = some name := by
  rw [← OrderedTable.mem_toList_iff, toList_ofCases_plain hascending, List.mem_filterMap]
  simp only [Case.binding?_eq_some_iff]

end OpcodeMap

end OpcodeAtlas
