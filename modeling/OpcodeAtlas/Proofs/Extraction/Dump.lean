import OpcodeAtlas.Proofs.Extraction.Exact
import OpcodeAtlas.Proofs.Opcode.Dump

/-!
# OpcodeAtlas.Proofs.Extraction.Dump — dumping everything adds and takes nothing away

Whether everything is dumped is looked at only when the cases of a switch become a map. So it does
not decide whether extraction succeeds, and of two maps that differ in it one is part of the other:

* `run_of_vtable` — extraction finds the cases first (`findCases`) and makes a map of them then;
* `run_dumpAll_extends` — with and without a dump, extraction fails with the same fault or gives two
  maps of the same cases, the plain one part of the dump.
-/

namespace OpcodeAtlas.Extraction

open Layout (tight tightSwitch)

variable {policy : MismatchPolicy} {file : MapFile} {image : Image}

/-- What the `vtable` method needs of a file, and the cases of the switch that it leads to. -/
def findCases (policy : MismatchPolicy) (file : MapFile) (image : Image) :
    Except ExtractError (VTableConfig × List Case) := do
  let config ← file.vtableConfig.mapError .mapFile
  let (_, start) ← locate config.signature image
  let cases ← (config.layout.decode policy image start).mapError .decode
  return (config, cases)

/-- The cases are found first, and whether everything is dumped matters only then. -/
theorem run_of_vtable (hmethod : file.method = .ok .vtable) (dumpAll : Bool) :
    run ⟨dumpAll, policy⟩ file image =
      (findCases policy file image).map fun found =>
        OpcodeMap.ofCases found.1.names dumpAll found.2 := by
  rw [run, hmethod]
  change file.vtableConfig.mapError ExtractError.mapFile >>=
    (fun config => runVTable ⟨dumpAll, policy⟩ config image) = _
  unfold runVTable findCases
  -- Stage by stage, both sides fail with the same fault or go on with the same value.
  cases file.vtableConfig.mapError ExtractError.mapFile with
  | error e => rfl
  | ok config =>
    simp only [Outcome.ok_bind]
    cases locate config.signature image with
    | error e => rfl
    | ok found =>
      simp only [Outcome.ok_bind]
      cases (config.layout.decode policy image found.2).mapError ExtractError.decode with
      | error e => rfl
      | ok cases => rfl

theorem stages_of_findCases {config : VTableConfig} {cases : List Case}
    (h : findCases policy file image = .ok (config, cases)) :
    file.vtableConfig = .ok config ∧ ∃ pattern start,
      Pattern.parse config.signature = .ok pattern ∧ pattern.findUnique image = .ok start ∧
      config.layout.decode policy image start = .ok cases := by
  rcases Outcome.bind_eq_ok.1 h with ⟨found, hconfig, h⟩
  rcases Outcome.bind_eq_ok.1 h with ⟨⟨pattern, start⟩, hlocate, h⟩
  rcases Outcome.bind_eq_ok.1 h with ⟨found', hdecode, h⟩
  cases h
  rcases locate_eq_ok_iff.1 hlocate with ⟨hparse, hfind⟩
  exact ⟨Outcome.mapError_eq_ok.1 hconfig, pattern, start, hparse, hfind,
    Outcome.mapError_eq_ok.1 hdecode⟩

/-- Without a dump and with one, extraction fails with the same fault, or it succeeds and the map
of named cases is part of the dump. By the known method the dump says of each opcode what the
decoded cases say of it, and of a diagnostic opcode only what no case says otherwise; this holds
for a table of any length. -/
theorem run_dumpAll_extends (policy : MismatchPolicy) (file : MapFile) (image : Image) :
    (∃ e, run ⟨true, policy⟩ file image = .error e ∧ run ⟨false, policy⟩ file image = .error e) ∨
    ∃ dump plain, run ⟨true, policy⟩ file image = .ok dump ∧
      run ⟨false, policy⟩ file image = .ok plain ∧ plain.toList ⊆ dump.toList ∧
      (file.method = .ok .vtable →
        ∃ config pattern start cases, file.vtableConfig = .ok config ∧
          Pattern.parse config.signature = .ok pattern ∧ pattern.findUnique image = .ok start ∧
          config.layout.decode policy image start = .ok cases ∧
          Dumps config.names cases dump) := by
  cases hmethod : file.method with
  | error e =>
    have hrun : ∀ dumpAll, run ⟨dumpAll, policy⟩ file image = .error (.mapFile e) := by
      intro dumpAll
      rw [run, hmethod]
      rfl
    exact .inl ⟨_, hrun true, hrun false⟩
  | ok method =>
    cases method with
    | other name =>
      have hrun : ∀ dumpAll, run ⟨dumpAll, policy⟩ file image = .ok .empty := by
        intro dumpAll
        rw [run, hmethod]
        rfl
      exact .inr ⟨_, _, hrun true, hrun false, List.Subset.refl _, by simp⟩
    | vtable =>
      cases hfound : findCases policy file image with
      | error e =>
        have hrun : ∀ dumpAll, run ⟨dumpAll, policy⟩ file image = .error e := by
          intro dumpAll
          rw [run_of_vtable hmethod, hfound]
          rfl
        exact .inl ⟨e, hrun true, hrun false⟩
      | ok found =>
        rcases found with ⟨config, cases⟩
        have hrun : ∀ dumpAll, run ⟨dumpAll, policy⟩ file image =
            .ok (OpcodeMap.ofCases config.names dumpAll cases) := by
          intro dumpAll
          rw [run_of_vtable hmethod, hfound]
          rfl
        rcases stages_of_findCases hfound with ⟨hconfig, pattern, start, hparse, hfind, hdecode⟩
        rcases Layout.decode_eq_ok_iff.1 hdecode with ⟨header, -, -, hwalk⟩
        have hascending := (Layout.pairwise_cases hwalk).imp And.right
        refine .inr ⟨_, _, hrun true, hrun false, ?_, fun _ => ⟨config, pattern, start, cases,
          hconfig, hparse, hfind, hdecode, OpcodeMap.dumps_ofCases hascending⟩⟩
        rintro ⟨opcode, name⟩ hplain
        rw [OrderedTable.mem_toList_iff] at hplain ⊢
        exact OpcodeMap.get?_ofCases_dump_of_plain hascending hplain

/-- A dump tells the body that cannot be read, and the bare slot of the named handler. -/
theorem run_dumpAll_extends_tightSwitch :
    ∃ dump plain, run ⟨true, .strict⟩ (tightFile "FE02") (tightSwitch 2) = .ok dump ∧
      run ⟨false, .strict⟩ (tightFile "FE02") (tightSwitch 2) = .ok plain ∧
      plain.toList ⊆ dump.toList ∧ dump.get? 4 = some "Index_unknown" ∧
      dump.get? 0x10002 = some "Index_1" := by
  rcases run_dumpAll_extends .strict (tightFile "FE02") (tightSwitch 2) with
    ⟨e, -, hfails⟩ | ⟨dump, plain, hdump, hplain, hsubset, hcases⟩
  · have hrun : run ⟨false, .strict⟩ (tightFile "FE02") (tightSwitch 2) =
        .ok (.ofList [(2, "FooHandler")]) := rfl
    rw [hrun] at hfails
    cases hfails
  · rcases hcases rfl with ⟨config, pattern, start, cases, hconfig, hparse, hfind, hdecode, hsays⟩
    obtain rfl : ⟨"FE02", .ofList [(1, "FooHandler")], tight⟩ = config := Except.ok.inj hconfig
    obtain rfl : ⟨[some 0xFE, some 2], by decide⟩ = pattern := Except.ok.inj hparse
    obtain rfl : 0 = start := Except.ok.inj hfind
    obtain rfl : [⟨0, 2, 29, some 1⟩, ⟨2, 4, 200, none⟩] = cases := Except.ok.inj hdecode
    refine ⟨dump, plain, hdump, hplain, hsubset, ?_, ?_⟩
    · exact hsays.unknown ⟨2, 4, 200, none⟩ (by decide) rfl
    · exact hsays.diagnostic 0x10002 (by decide) ⟨0, 2, 29, some 1⟩ (by decide) (by decide) 1
        "FooHandler" rfl rfl

end OpcodeAtlas.Extraction
