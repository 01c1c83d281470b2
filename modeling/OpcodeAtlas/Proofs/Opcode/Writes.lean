import Mathlib.Data.List.Forall2
import OpcodeAtlas.Opcode.Map
import OpcodeAtlas.Proofs.Table.Replay

/-!
# OpcodeAtlas.Proofs.Opcode.Writes — an opcode map is what its cases write

Cases are resolved one after the other, and each of them writes to the map. What a case writes is
told by rules (`Case.Writes`), one for each kind of case with a dump and without; the cases of a list
write one after the other (`WriteSequence`).

* `Case.writes_iff` — the rules say of each case what it contributes;
* `writeSequence_iff` — and of a list what is recorded;
* `OpcodeMap.ofCases_leaves_writes` — the map holds what these writes leave.

Nothing is asked of the cases: their opcodes may stand in any order, repeat each other or fall on the
diagnostic opcode of another case.
-/

namespace OpcodeAtlas

variable {names : SlotNames} {dumpAll : Bool} {cases : List Case}

/-- What a case writes to the map, without a dump and with one. -/
inductive Case.Writes (names : SlotNames) : Bool → Case → List (Int × String) → Prop
  | unknown {c : Case} (hslot : c.slot = none) : c.Writes names false []
  | unknownDumped {c : Case} (hslot : c.slot = none) :
      c.Writes names true [(c.opcode, "Index_unknown")]
  | named {c : Case} {slot : Int} {name : String} (hslot : c.slot = some slot)
      (hname : names.get? slot = some name) : c.Writes names false [(c.opcode, name)]
  | namedDumped {c : Case} {slot : Int} {name : String} (hslot : c.slot = some slot)
      (hname : names.get? slot = some name) :
      c.Writes names true [(c.opcode, name), (c.opcode + 0x10000, s!"Index_{slot}")]
  | unnamed {c : Case} {slot : Int} (hslot : c.slot = some slot)
      (hname : names.get? slot = none) : c.Writes names false []
  | unnamedDumped {c : Case} {slot : Int} (hslot : c.slot = some slot)
      (hname : names.get? slot = none) : c.Writes names true [(c.opcode, s!"Index_{slot}")]

/-- Exactly one rule applies to a case. -/
theorem Case.writes_iff {c : Case} {writes : List (Int × String)} :
    c.Writes names dumpAll writes ↔ caseRecords names dumpAll c = writes := by
  constructor
  · intro h
    cases h with
    | unknown hslot => simp [caseRecords, hslot]
    | unknownDumped hslot => simp [caseRecords, hslot, unknownSlotName]
    | named hslot hname => simp [caseRecords, hslot, hname]
    | namedDumped hslot hname =>
      simp [caseRecords, hslot, hname, diagnosticOffset, slotPlaceholder]
    | unnamed hslot hname => simp [caseRecords, hslot, hname]
    | unnamedDumped hslot hname => simp [caseRecords, hslot, hname, slotPlaceholder]
  · rintro rfl
    unfold caseRecords
    cases hslot : c.slot with
    | none =>
      cases dumpAll with
      | false => exact .unknown hslot
      | true => exact .unknownDumped hslot
    | some slot =>
      cases hname : names.get? slot with
      | none =>
        cases dumpAll with
        | false => simpa only [hname] using .unnamed hslot hname
        | true => simpa only [hname] using .unnamedDumped hslot hname
      | some name =>
        cases dumpAll with
        | false => simpa only [hname] using .named hslot hname
        | true => simpa only [hname] using .namedDumped hslot hname

/-- The writes of the cases, one case after the other. -/
def WriteSequence (names : SlotNames) (dumpAll : Bool) (cases : List Case)
    (writes : List (Int × String)) : Prop :=
  ∃ parts, List.Forall₂ (Case.Writes names dumpAll) cases parts ∧ writes = parts.flatten

theorem writeSequence_iff {writes : List (Int × String)} :
    WriteSequence names dumpAll cases writes ↔
      writes = cases.flatMap (caseRecords names dumpAll) := by
  have hrules : Case.Writes names dumpAll = fun c part => caseRecords names dumpAll c = part := by
    funext c part
    exact propext Case.writes_iff
  have hparts : ∀ parts, List.Forall₂ (Case.Writes names dumpAll) cases parts ↔
      cases.map (caseRecords names dumpAll) = parts := by
    intro parts
    rw [hrules, ← List.forall₂_map_left_iff (R := Eq), List.forall₂_eq_eq_eq]
  simp only [WriteSequence, hparts, exists_eq_left', List.flatMap_def]

namespace OpcodeMap

/-- The cases of a list write one certain sequence, and the map holds what this sequence leaves: each
opcode that is written stands once, at the place of its first write and with the name of its last
write, and there is nothing else. No other bindings are left by the sequence. -/
theorem ofCases_leaves_writes (names : SlotNames) (dumpAll : Bool) (cases : List Case) :
    ∃ writes, (∀ writes', WriteSequence names dumpAll cases writes' ↔ writes' = writes) ∧
      ∀ bindings, LeftBy writes bindings ↔ bindings = (ofCases names dumpAll cases).toList := by
  refine ⟨cases.flatMap (caseRecords names dumpAll), fun _ => writeSequence_iff, ?_⟩
  have hleft := OrderedTable.leftBy_ofList (cases.flatMap (caseRecords names dumpAll))
  intro bindings
  constructor
  · intro h
    exact h.unique hleft
  · rintro rfl
    exact hleft

-- The name of the later case stands where the bare slot of the earlier one was written first.
example :
    (ofCases (.ofList [(1, "Foo"), (7, "Bar")]) true
      [⟨0, 5, 40, some 1⟩, ⟨1, 0x10005, 80, some 7⟩]).toList =
      [(5, "Foo"), (0x10005, "Bar"), (0x20005, "Index_7")] := by decide

end OpcodeMap

end OpcodeAtlas
