import OpcodeAtlas.Proofs.Opcode.Plain

/-!
# OpcodeAtlas.Proofs.Opcode.Dump — the map of all cases

When everything is dumped, each case records its own opcode, and a named case records the bare slot
under its diagnostic opcode besides. In a long table a diagnostic opcode may be the opcode of a
later case. As cases come by ascending opcode, the later case then has the last word:

* `caseRecords_dump` — the own record of a case, and the diagnostic one behind it;
* `get?_ofCases_own` — a case decides its own opcode, whatever diagnostic record falls on it;
* `get?_ofCases_diagnostic` — a diagnostic record holds where no case has its opcode;
* `dumps_ofCases` — what the map says of every opcode (`Dumps`);
* `get?_ofCases_dump_of_plain` — the map of named cases is part of the dump.
-/

namespace OpcodeAtlas

variable {names : SlotNames}

/-- The name that a dump records for a case. -/
def dumpedName (names : SlotNames) (c : Case) : String :=
  match c.slot with
  | none => unknownSlotName
  | some slot => (names.get? slot).getD (slotPlaceholder slot)

/-- The record of the bare slot of a named case. -/
def diagnosticRecords (names : SlotNames) (c : Case) : List (Int × String) :=
  match c.slot with
  | none => []
  | some slot =>
    if (names.get? slot).isSome then [(c.opcode + diagnosticOffset, slotPlaceholder slot)] else []

theorem caseRecords_dump (names : SlotNames) (c : Case) :
    caseRecords names true c = (c.opcode, dumpedName names c) :: diagnosticRecords names c := by
  unfold caseRecords dumpedName diagnosticRecords
  cases hslot : c.slot with
  | none => rfl
  | some slot => cases hname : names.get? slot <;> simp [hname]

/-- Only a named case has a diagnostic record, and it is the one of its slot. -/
theorem mem_diagnosticRecords {c : Case} {r : Int × String} :
    r ∈ diagnosticRecords names c ↔ ∃ slot name, c.slot = some slot ∧
      names.get? slot = some name ∧ r = (c.opcode + diagnosticOffset, slotPlaceholder slot) := by
  unfold diagnosticRecords
  cases hslot : c.slot with
  | none => simp
  | some slot => cases hname : names.get? slot <;> simp [hname]

/-- A record stands under the opcode of its case or under the diagnostic one. -/
theorem opcode_of_mem_caseRecords {dumpAll : Bool} {c : Case} {r : Int × String}
    (h : r ∈ caseRecords names dumpAll c) :
    r.1 = c.opcode ∨ r.1 = c.opcode + diagnosticOffset := by
  cases dumpAll with
  | false => exact .inl (mem_caseRecords_plain.1 h).1.symm
  | true =>
    rw [caseRecords_dump, List.mem_cons] at h
    rcases h with rfl | hdiagnostic
    · exact .inl rfl
    · rcases mem_diagnosticRecords.1 hdiagnostic with ⟨slot, name, -, -, rfl⟩
      exact .inr rfl

/-- What a dump records is the own opcode of a case or the diagnostic opcode of a named one. -/
theorem mem_keys_dump {cases : List Case} {opcode : Int} :
    opcode ∈ (cases.flatMap (caseRecords names true)).map Prod.fst ↔
      (∃ c ∈ cases, c.opcode = opcode) ∨
        ∃ c ∈ cases, c.opcode + diagnosticOffset = opcode ∧
          ∃ slot name, c.slot = some slot ∧ names.get? slot = some name := by
  simp only [List.mem_map, List.mem_flatMap, caseRecords_dump, List.mem_cons,
    mem_diagnosticRecords]
  constructor
  · rintro ⟨_, ⟨c, hc, rfl | ⟨slot, name, hslot, hname, rfl⟩⟩, rfl⟩
    · exact .inl ⟨c, hc, rfl⟩
    · exact .inr ⟨c, hc, rfl, slot, name, hslot, hname⟩
  · rintro (⟨c, hc, rfl⟩ | ⟨c, hc, rfl, slot, name, hslot, hname⟩)
    · exact ⟨_, ⟨c, hc, .inl rfl⟩, rfl⟩
    · exact ⟨_, ⟨c, hc, .inr ⟨slot, name, hslot, hname, rfl⟩⟩, rfl⟩

/-- What a map says of all cases. An opcode of a case has the name of its slot, a placeholder if the
slot is unnamed, or the word for an unknown slot. Any other opcode has the placeholder of the named
case that it is the diagnostic opcode of, or nothing. -/
structure Dumps (names : SlotNames) (cases : List Case) (m : OpcodeMap) : Prop where
  unknown : ∀ c ∈ cases, c.slot = none → m.get? c.opcode = some "Index_unknown"
  named : ∀ c ∈ cases, ∀ slot name, c.slot = some slot → names.get? slot = some name →
    m.get? c.opcode = some name
  unnamed : ∀ c ∈ cases, ∀ slot, c.slot = some slot → names.get? slot = none →
    m.get? c.opcode = some s!"Index_{slot}"
  diagnostic : ∀ opcode, (∀ c ∈ cases, c.opcode ≠ opcode) →
    ∀ c ∈ cases, c.opcode = opcode - 0x10000 → ∀ slot name, c.slot = some slot →
      names.get? slot = some name → m.get? opcode = some s!"Index_{slot}"
  absent : ∀ opcode, (∀ c ∈ cases, c.opcode ≠ opcode) →
    (∀ c ∈ cases, c.opcode = opcode - 0x10000 → ∀ slot, c.slot = some slot →
      names.get? slot = none) → m.get? opcode = none

namespace OpcodeMap

variable {cases : List Case} (hascending : cases.Pairwise fun c c' => c.opcode < c'.opcode)
include hascending

/-- Behind a case there are greater opcodes only. -/
theorem exists_split {c : Case} (hc : c ∈ cases) :
    ∃ front back, cases = front ++ c :: back ∧ ∀ c' ∈ back, c.opcode < c'.opcode := by
  rcases List.append_of_mem hc with ⟨front, back, rfl⟩
  exact ⟨front, back, rfl, (List.pairwise_cons.1 (List.pairwise_append.1 hascending).2.1).1⟩

/-- A case decides its own opcode: a diagnostic record that falls on it stands before it. -/
theorem get?_ofCases_own {c : Case} (hc : c ∈ cases) :
    (ofCases names true cases).get? c.opcode = some (dumpedName names c) := by
  rcases exists_split hascending hc with ⟨front, back, rfl, hlater⟩
  rw [ofCases, List.flatMap_append, List.flatMap_cons, caseRecords_dump, List.cons_append]
  apply OrderedTable.get?_ofList_append_cons
  rw [List.map_append, List.mem_append, not_or]
  constructor
  · -- The diagnostic opcode of the case itself lies above its own.
    intro hmem
    rcases List.mem_map.1 hmem with ⟨r, hr, hkey⟩
    rcases mem_diagnosticRecords.1 hr with ⟨slot, name, -, -, rfl⟩
    simp only [diagnosticOffset] at hkey
    omega
  · intro hmem
    rcases mem_keys_dump.1 hmem with ⟨c', hc', hkey⟩ | ⟨c', hc', hkey, -⟩
    · have hlt := hlater c' hc'
      omega
    · have hlt := hlater c' hc'
      unfold diagnosticOffset at hkey
      omega

/-- A diagnostic record holds where no case has its opcode. -/
theorem get?_ofCases_diagnostic {c : Case} (hc : c ∈ cases) {slot : Int} {name : String}
    (hslot : c.slot = some slot) (hname : names.get? slot = some name)
    (hother : ∀ c' ∈ cases, c'.opcode ≠ c.opcode + diagnosticOffset) :
    (ofCases names true cases).get? (c.opcode + diagnosticOffset) =
      some (slotPlaceholder slot) := by
  rcases exists_split hascending hc with ⟨front, back, rfl, hlater⟩
  have hrecords : caseRecords names true c =
      [(c.opcode, dumpedName names c), (c.opcode + diagnosticOffset, slotPlaceholder slot)] := by
    rw [caseRecords_dump]
    simp [diagnosticRecords, hslot, hname]
  have hsplit : (front ++ c :: back).flatMap (caseRecords names true) =
      (front.flatMap (caseRecords names true) ++ [(c.opcode, dumpedName names c)]) ++
        (c.opcode + diagnosticOffset, slotPlaceholder slot) ::
          back.flatMap (caseRecords names true) := by
    rw [List.flatMap_append, List.flatMap_cons, hrecords]
    simp
  rw [ofCases, hsplit]
  apply OrderedTable.get?_ofList_append_cons
  intro hmem
  rcases mem_keys_dump.1 hmem with ⟨c', hc', hkey⟩ | ⟨c', hc', hkey, -⟩
  · exact hother c' (List.mem_append_right _ (List.mem_cons_of_mem _ hc')) hkey
  · have hlt := hlater c' hc'
    omega

theorem dumps_ofCases : Dumps names cases (ofCases names true cases) where
  unknown := by
    intro c hc hslot
    rw [get?_ofCases_own hascending hc, dumpedName, hslot]
    rfl
  named := by
    intro c hc slot name hslot hname
    rw [get?_ofCases_own hascending hc, dumpedName, hslot]
    simp [hname]
  unnamed := by
    intro c hc slot hslot hname
    rw [get?_ofCases_own hascending hc, dumpedName, hslot]
    simp [hname, slotPlaceholder]
  diagnostic := by
    intro opcode hother c hc hopcode slot name hslot hname
    obtain rfl : opcode = c.opcode + diagnosticOffset := by
      unfold diagnosticOffset
      omega
    exact get?_ofCases_diagnostic hascending hc hslot hname hother
  absent := by
    intro opcode hother hunnamed
    apply OrderedTable.get?_ofList_eq_none
    intro hmem
    rcases mem_keys_dump.1 hmem with ⟨c, hc, hkey⟩ | ⟨c, hc, hkey, slot, name, hslot, hname⟩
    · exact hother c hc hkey
    · unfold diagnosticOffset at hkey
      have hnone := hunnamed c hc (by omega) slot hslot
      rw [hname] at hnone
      cases hnone

/-- The map of named cases is part of the dump. -/
theorem get?_ofCases_dump_of_plain {opcode : Int} {name : String}
    (h : (ofCases names false cases).get? opcode = some name) :
    (ofCases names true cases).get? opcode = some name := by
  rcases (get?_ofCases_plain hascending).1 h with ⟨c, hc, rfl, slot, hslot, hname⟩
  exact (dumps_ofCases hascending).named c hc slot name hslot hname

end OpcodeMap

end OpcodeAtlas
