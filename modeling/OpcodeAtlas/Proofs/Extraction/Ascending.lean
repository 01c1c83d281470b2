import OpcodeAtlas.Opcode.Output
import OpcodeAtlas.Proofs.Extraction.Dump
import OpcodeAtlas.Proofs.Extraction.Stage

/-!
# OpcodeAtlas.Proofs.Extraction.Ascending — a plain extraction is sorted already

The table of a switch is walked by ascending index, and the opcode of an entry ascends with its
index. So the cases of a switch have distinct opcodes, none of them overwrites another, and the map
of the named ones ascends from the start. Sorting it changes nothing, in memory or in a text.

* `OpcodeMap.sorted_eq_toList`, `OpcodeMap.toJson_eq_unsorted` — what sorting an ascending map does;
* `Layout.ascending_of_decode` — the cases of a switch ascend;
* `Extraction.runOrEmpty_plain_ascending` — the map of a plain extraction, whatever the file and the
  image are.
-/

namespace OpcodeAtlas

/-! ## Ascending maps -/

namespace OpcodeMap

variable {m : OpcodeMap} (h : m.toList.Pairwise fun b b' => b.1 < b'.1)
include h

/-- Bindings that ascend are sorted. -/
theorem sorted_eq_toList : m.sorted = m.toList :=
  List.mergeSort_of_pairwise (h.imp fun hlt => decide_eq_true (Int.le_of_lt hlt))

/-- The text of an ascending map is the same with sorting and without. -/
theorem toJson_eq_unsorted (style : Json.Style) : m.toJson style true = m.toJson style false := by
  have hordered : m.ordered true = m.ordered false := sorted_eq_toList h
  rw [toJson, toJson, hordered]

end OpcodeMap

/-! ## Ascending cases -/

/-- Whatever the switch, its cases come by ascending opcode. -/
theorem Layout.ascending_of_decode {layout : Layout} {policy : MismatchPolicy} {image : Image}
    {start : Nat} {cases : List Case} (hdecode : layout.decode policy image start = .ok cases) :
    cases.Pairwise fun c c' => c.opcode < c'.opcode := by
  rcases Layout.decode_eq_ok_iff.1 hdecode with ⟨h, -, -, hwalk⟩
  exact (Layout.pairwise_cases hwalk).imp And.right

namespace Extraction

open Layout (tight tightSwitch)

variable {x : Extraction} {policy : MismatchPolicy} {file : MapFile} {image : Image}

/-- By the known method a plain extraction that succeeds has decoded a switch, and its map holds one
binding for each named case of it. -/
theorem run_plain_bindings {opcodes : OpcodeMap} (hmethod : file.method = .ok .vtable)
    (hrun : run ⟨false, policy⟩ file image = .ok opcodes) :
    ∃ config pattern start cases, file.vtableConfig = .ok config ∧
      Pattern.parse config.signature = .ok pattern ∧ pattern.findUnique image = .ok start ∧
      config.layout.decode policy image start = .ok cases ∧
      opcodes.toList = cases.filterMap (Case.binding? config.names) := by
  rcases (run_eq_ok_iff hmethod).1 hrun with ⟨config, hconfig, hstages⟩
  rcases runVTable_eq_ok_iff.1 hstages with ⟨pattern, start, cases, hparse, hfind, hdecode, rfl⟩
  exact ⟨config, pattern, start, cases, hconfig, hparse, hfind, hdecode,
    OpcodeMap.toList_ofCases_plain (Layout.ascending_of_decode hdecode)⟩

/-- An extraction that does not succeed by the known method leaves an empty map. -/
theorem runOrEmpty_eq_empty
    (h : ¬(file.method = .ok .vtable ∧ ∃ opcodes, x.run file image = .ok opcodes)) :
    x.runOrEmpty file image = .empty := by
  cases hrun : x.run file image with
  | error e => rw [runOrEmpty, hrun]
  | ok opcodes =>
    cases hmethod : file.method with
    | error e =>
      rw [run_of_method_error hmethod] at hrun
      cases hrun
    | ok method =>
      cases method with
      | vtable => exact absurd ⟨hmethod, opcodes, hrun⟩ h
      | other name => rw [runOrEmpty, run_of_other hmethod]

/-- The map of a plain extraction ascends. -/
theorem pairwise_runOrEmpty_plain (policy : MismatchPolicy) (file : MapFile) (image : Image) :
    (runOrEmpty ⟨false, policy⟩ file image).toList.Pairwise fun b b' => b.1 < b'.1 := by
  by_cases hsuccess :
      file.method = .ok .vtable ∧ ∃ opcodes, run ⟨false, policy⟩ file image = .ok opcodes
  · rcases hsuccess with ⟨hmethod, opcodes, hrun⟩
    rcases run_plain_bindings hmethod hrun with ⟨config, -, start, cases, -, -, -, hdecode, hmap⟩
    rw [runOrEmpty, hrun]
    change opcodes.toList.Pairwise _
    rw [hmap]
    exact pairwise_bindings (Layout.ascending_of_decode hdecode)
  · rw [runOrEmpty_eq_empty hsuccess]
    exact List.Pairwise.nil

/-- Whatever the file and the image are, the map of a plain extraction ascends. If the known method
succeeds, the map holds one binding for each decoded case that is named, in the order of the cases,
and otherwise it is empty. So sorting changes neither the map nor its text in either style. -/
theorem runOrEmpty_plain_ascending (policy : MismatchPolicy) (file : MapFile) (image : Image) :
    ∃ opcodes, runOrEmpty ⟨false, policy⟩ file image = opcodes ∧
      opcodes.toList.Pairwise (fun b b' => b.1 < b'.1) ∧
      (file.method = .ok .vtable → (∃ found, run ⟨false, policy⟩ file image = .ok found) →
        ∃ config pattern start cases, file.vtableConfig = .ok config ∧
          Pattern.parse config.signature = .ok pattern ∧ pattern.findUnique image = .ok start ∧
          config.layout.decode policy image start = .ok cases ∧
          opcodes.toList = cases.filterMap (Case.binding? config.names)) ∧
      (¬(file.method = .ok .vtable ∧ ∃ found, run ⟨false, policy⟩ file image = .ok found) →
        opcodes = .empty) ∧
      opcodes.sorted = opcodes.toList ∧
      ∀ style, opcodes.toJson style true = opcodes.toJson style false := by
  have hascending := pairwise_runOrEmpty_plain policy file image
  refine ⟨_, rfl, hascending, ?_, runOrEmpty_eq_empty, OpcodeMap.sorted_eq_toList hascending,
    OpcodeMap.toJson_eq_unsorted hascending⟩
  rintro hmethod ⟨found, hrun⟩
  have hfound : runOrEmpty ⟨false, policy⟩ file image = found := by rw [runOrEmpty, hrun]
  rw [hfound]
  exact run_plain_bindings hmethod hrun

/-- Of two decoded cases one is named, and its binding is all that the map holds. -/
theorem runOrEmpty_plain_ascending_tightSwitch :
    ∃ opcodes, runOrEmpty ⟨false, .strict⟩ (tightFile "FE02") (tightSwitch 2) = opcodes ∧
      opcodes.toList = [(2, "FooHandler")] ∧ opcodes.sorted = [(2, "FooHandler")] ∧
      opcodes.toJson .pretty true = opcodes.toJson .pretty false := by
  have hrun : run ⟨false, .strict⟩ (tightFile "FE02") (tightSwitch 2) =
      .ok (.ofList [(2, "FooHandler")]) := rfl
  rcases runOrEmpty_plain_ascending .strict (tightFile "FE02") (tightSwitch 2) with
    ⟨opcodes, hopcodes, -, hsuccess, -, hsorted, htext⟩
  rcases hsuccess rfl ⟨_, hrun⟩ with
    ⟨config, pattern, start, cases, hconfig, hparse, hfind, hdecode, hmap⟩
  obtain rfl : ⟨"FE02", .ofList [(1, "FooHandler")], tight⟩ = config := Except.ok.inj hconfig
  obtain rfl : ⟨[some 0xFE, some 2], by decide⟩ = pattern := Except.ok.inj hparse
  obtain rfl : 0 = start := Except.ok.inj hfind
  obtain rfl : [⟨0, 2, 29, some 1⟩, ⟨2, 4, 200, none⟩] = cases := Except.ok.inj hdecode
  exact ⟨opcodes, hopcodes, hmap, hsorted.trans hmap, htext .pretty⟩

end Extraction

end OpcodeAtlas
