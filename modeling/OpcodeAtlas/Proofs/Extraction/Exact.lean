import OpcodeAtlas.Extraction.Basic
import OpcodeAtlas.Proofs.Dispatch.Call
import OpcodeAtlas.Proofs.Dispatch.Cases
import OpcodeAtlas.Proofs.MapFile.SlotNames
import OpcodeAtlas.Proofs.Opcode.Plain
import OpcodeAtlas.Proofs.Signature.Occurrence

/-!
# OpcodeAtlas.Proofs.Extraction.Exact — a plain extraction says what the image says

A plain extraction composes five stages: the signature is read as a pattern, the pattern is found in
the image, the switch is decoded, each case body tells its slot, and slots become names.

* `run_eq_ok_iff`, `vtableConfig_eq_ok_iff`, `runVTable_eq_ok_iff` — extraction succeeds when every
  stage does;
* `get?_ofCases_iff` — the map of a decoded switch binds an opcode to a name exactly when the table
  sends the opcode to a body that calls a slot with the name;
* `run_plain_exact` — the same of map file and image, with no stage in between.

A body counts only if it starts in the image: a target in front of it is skipped, even when the
bytes that would tell its slot lie in the image (`run_skips_body_before_image`).
-/

namespace OpcodeAtlas

theorem MapFile.vtableConfig_eq_ok_iff {file : MapFile} {config : VTableConfig} :
    file.vtableConfig = .ok config ↔
      ∃ signature names layout, file.signature = .ok signature ∧ file.names = .ok names ∧
        file.layout = .ok layout ∧ config = ⟨signature.compact, names, layout⟩ := by
  constructor
  · intro h
    rcases Outcome.bind_eq_ok.1 h with ⟨signature, hsignature, h⟩
    rcases Outcome.bind_eq_ok.1 h with ⟨names, hnames, h⟩
    rcases Outcome.bind_eq_ok.1 h with ⟨layout, hlayout, h⟩
    cases h
    exact ⟨signature, names, layout, hsignature, hnames, hlayout, rfl⟩
  · intro hex
    rcases hex with ⟨signature, names, layout, hsignature, hnames, hlayout, rfl⟩
    rw [vtableConfig, hsignature, hnames, hlayout]
    rfl

namespace Extraction

open Layout (tight tightSwitch)

variable {x : Extraction} {policy : MismatchPolicy} {image : Image} {opcodes : OpcodeMap}

/-! ## The stages -/

theorem locate_eq_ok_iff {signature : String} {pattern : Pattern} {start : Nat} :
    locate signature image = .ok (pattern, start) ↔
      Pattern.parse signature = .ok pattern ∧ pattern.findUnique image = .ok start := by
  constructor
  · intro h
    rcases Outcome.bind_eq_ok.1 h with ⟨found, hparse, h⟩
    rcases Outcome.bind_eq_ok.1 h with ⟨offset, hfind, h⟩
    cases h
    exact ⟨Outcome.mapError_eq_ok.1 hparse, Outcome.mapError_eq_ok.1 hfind⟩
  · intro hex
    rcases hex with ⟨hparse, hfind⟩
    have hoffset := Outcome.mapError_eq_ok (f := ExtractError.matchCount).2 hfind
    exact Outcome.bind_eq_ok.2
      ⟨pattern, Outcome.mapError_eq_ok.2 hparse, Outcome.bind_eq_ok.2 ⟨start, hoffset, rfl⟩⟩

theorem runVTable_eq_ok_iff {config : VTableConfig} :
    x.runVTable config image = .ok opcodes ↔
      ∃ pattern start cases, Pattern.parse config.signature = .ok pattern ∧
        pattern.findUnique image = .ok start ∧
        config.layout.decode x.policy image start = .ok cases ∧
        opcodes = OpcodeMap.ofCases config.names x.dumpAll cases := by
  constructor
  · intro h
    rcases Outcome.bind_eq_ok.1 h with ⟨⟨pattern, start⟩, hlocate, h⟩
    rcases Outcome.bind_eq_ok.1 h with ⟨cases, hdecode, h⟩
    cases h
    rcases locate_eq_ok_iff.1 hlocate with ⟨hparse, hfind⟩
    exact ⟨pattern, start, cases, hparse, hfind, Outcome.mapError_eq_ok.1 hdecode, rfl⟩
  · intro hex
    rcases hex with ⟨pattern, start, cases, hparse, hfind, hdecode, rfl⟩
    have hcases := Outcome.mapError_eq_ok (f := ExtractError.decode).2 hdecode
    exact Outcome.bind_eq_ok.2 ⟨(pattern, start), locate_eq_ok_iff.2 ⟨hparse, hfind⟩,
      Outcome.bind_eq_ok.2 ⟨cases, hcases, rfl⟩⟩

/-- The known method succeeds when the fields of the file and its stages do. -/
theorem run_eq_ok_iff {file : MapFile} (hmethod : file.method = .ok .vtable) :
    x.run file image = .ok opcodes ↔
      ∃ config, file.vtableConfig = .ok config ∧ x.runVTable config image = .ok opcodes := by
  have hrun : x.run file image =
      file.vtableConfig.mapError .mapFile >>= fun config => x.runVTable config image := by
    rw [run, hmethod]
    rfl
  rw [hrun, Outcome.bind_eq_ok]
  simp only [Outcome.mapError_eq_ok]

/-! ## The map -/

/-- Behind a decoded switch, the plain map binds an opcode to a name exactly when the table sends
the opcode to a body in the image that calls a slot with the name. -/
theorem get?_ofCases_iff (himage : image.Addressable) {h : SwitchHeader} {cases : List Case}
    (hwalk : (Walk.ofHeader h image).result = .ok cases) {names : SlotNames} {opcode : Int}
    {name : String} :
    (OpcodeMap.ofCases names false cases).get? opcode = some name ↔
      ∃ target slot, h.LeadsTo image opcode target ∧ 0 ≤ target ∧
        CaseBody.Calls image target slot ∧ names.get? slot = some name := by
  have hascending := (Layout.pairwise_cases hwalk).imp And.right
  rw [OpcodeMap.get?_ofCases_plain hascending, Layout.exists_case_iff hwalk
    (P := fun _ slot? => ∃ slot, slot? = some slot ∧ names.get? slot = some name)]
  simp only [CaseBody.slot_eq_some_iff himage]
  constructor
  · intro hex
    rcases hex with ⟨target, hleads, slot, ⟨hstart, hcalls⟩, hname⟩
    exact ⟨target, slot, hleads, hstart, hcalls, hname⟩
  · intro hex
    rcases hex with ⟨target, slot, hleads, hstart, hcalls, hname⟩
    exact ⟨target, hleads, slot, ⟨hstart, hcalls⟩, hname⟩

/-- A plain extraction that succeeds has found the signature at exactly one place, and its map binds
an opcode to a name exactly when the table that the layout designates there sends the opcode past
the default case to a body in the image that calls the slot to which the file gives the name. -/
theorem run_plain_exact {file : MapFile} (himage : image.Addressable)
    (hmethod : file.method = .ok .vtable)
    (hrun : run ⟨false, policy⟩ file image = .ok opcodes) :
    ∃ signature pattern start layout h,
      file.signature = .ok signature ∧ Pattern.parse signature.compact = .ok pattern ∧
      (∀ offset, pattern.StandsAt image offset ↔ offset = start) ∧
      file.layout = .ok layout ∧ layout.Describes image start h ∧
      ∀ opcode name, opcodes.get? opcode = some name ↔
        ∃ target slot, h.LeadsTo image opcode target ∧ 0 ≤ target ∧
          CaseBody.Calls image target slot ∧ file.NamesSlot slot name := by
  rcases (run_eq_ok_iff hmethod).1 hrun with ⟨config, hconfig, hstages⟩
  obtain ⟨signature, names, layout, hsignature, hnames, hlayout, rfl⟩ :=
    MapFile.vtableConfig_eq_ok_iff.1 hconfig
  rcases runVTable_eq_ok_iff.1 hstages with ⟨pattern, start, cases, hparse, hfind, hdecode, rfl⟩
  rcases Layout.decode_eq_ok_iff.1 hdecode with ⟨h, hread, -, hwalk⟩
  have hunique := Pattern.scan_eq_singleton_iff.1 (Pattern.findUnique_eq_ok_iff.1 hfind)
  refine ⟨signature, pattern, start, layout, h, hsignature, hparse, hunique, hlayout,
    Layout.describes_of_readHeader hread, fun opcode name => ?_⟩
  rw [get?_ofCases_iff himage hwalk]
  simp only [MapFile.names_get?_eq_some_iff hnames]

/-- A map file with one handler, for switches in the tight layout. -/
def tightFile (signature : String) : MapFile where
  members :=
    [("layout", .object
      [("switchTableOffsetOffset", .number (.integer 0)),
        ("switchTableCountOffset", .number (.integer 1)),
        ("defaultCaseAddrOffset", .number (.integer 5)),
        ("imageBaseOffsetOffset", .number (.integer 9)),
        ("switchTableDataOffsetOffset", .number (.integer 13))]),
    ("map", .object [("FooHandler", .number (.integer 1))]),
    ("method", .text "vtable"),
    ("signature", .text signature)]

/-- What an extracted map says of an opcode can be traced back to a body in the image. -/
theorem run_plain_exact_tightSwitch :
    ∃ h target slot, tight.Describes (tightSwitch 2) 0 h ∧
      h.LeadsTo (tightSwitch 2) 2 target ∧ CaseBody.Calls (tightSwitch 2) target slot ∧
      (tightFile "FE02").NamesSlot slot "FooHandler" := by
  have himage : (tightSwitch 2).Addressable := by decide
  have hrun : run ⟨false, .strict⟩ (tightFile "FE02") (tightSwitch 2) =
      .ok (.ofList [(2, "FooHandler")]) := rfl
  obtain ⟨signature, pattern, start, layout, h, hsignature, hparse, hunique, hlayout, hdescribes,
    hget⟩ := run_plain_exact himage rfl hrun
  rcases (hget 2 "FooHandler").1 rfl with ⟨target, slot, hleads, -, hcalls, hname⟩
  obtain rfl : .text "FE02" = signature := Except.ok.inj hsignature
  obtain rfl : ⟨[some 0xFE, some 2], by decide⟩ = pattern := Except.ok.inj hparse
  obtain rfl : 0 = start := (hunique 0).1 (Pattern.matchesAt_iff.1 rfl)
  obtain rfl : tight = layout := Except.ok.inj hlayout
  exact ⟨h, target, slot, hdescribes, hleads, hcalls, hname⟩

/-- A switch behind the last bytes of a body that starts five bytes in front of the image. -/
def overhangImage : Image :=
  .ofList ([0, 0, 0, 0, 0x60, 24] ++
    [0xFE, 0, 0, 0, 0, 0, 0, 0, 0, 0xED, 0xFF, 0xFF, 0xFF, 23, 0, 0, 0] ++ [0xFB, 0xFF, 0xFF, 0xFF])

/-- A map says nothing of a body that starts in front of the image, even if the bytes that tell its
slot lie in the image. -/
theorem run_skips_body_before_image :
    ¬∀ (policy : MismatchPolicy) (file : MapFile) (image : Image) (opcodes : OpcodeMap),
      image.Addressable → file.method = .ok .vtable →
      run ⟨false, policy⟩ file image = .ok opcodes →
      ∃ signature pattern start layout h,
        file.signature = .ok signature ∧ Pattern.parse signature.compact = .ok pattern ∧
        (∀ offset, pattern.StandsAt image offset ↔ offset = start) ∧
        file.layout = .ok layout ∧ layout.Describes image start h ∧
        ∀ opcode name, opcodes.get? opcode = some name ↔
          ∃ target slot, h.LeadsTo image opcode target ∧
            CaseBody.Calls image target slot ∧ file.NamesSlot slot name := by
  intro hclaim
  have himage : overhangImage.Addressable := by decide
  have hrun : run ⟨false, .strict⟩ (tightFile "FE00") overhangImage = .ok .empty := rfl
  obtain ⟨signature, pattern, start, layout, h, hsignature, hparse, hunique, hlayout, hdescribes,
    hget⟩ := hclaim .strict (tightFile "FE00") overhangImage _ himage rfl hrun
  obtain rfl : .text "FE00" = signature := Except.ok.inj hsignature
  obtain rfl : ⟨[some 0xFE, some 0], by decide⟩ = pattern := Except.ok.inj hparse
  obtain rfl : 6 = start := (hunique 6).1 (Pattern.matchesAt_iff.1 rfl)
  obtain rfl : tight = layout := Except.ok.inj hlayout
  have hheader : tight.readHeader overhangImage 6 = .ok ⟨-2, 0, 15, 0, 23⟩ := rfl
  obtain rfl : h = ⟨-2, 0, 15, 0, 23⟩ :=
    hdescribes.unique (Layout.describes_of_readHeader hheader)
  -- The only entry leads five bytes in front of the image, to a body that calls slot 1.
  have hentry : overhangImage.readI32At 23 = .ok (-5) := rfl
  have hleads : SwitchHeader.LeadsTo ⟨-2, 0, 15, 0, 23⟩ overhangImage 2 (-5) :=
    ⟨0, by decide, by decide, -5, (Image.readI32At_eq_ok_iff.1 hentry).2, by decide, by decide⟩
  have hcalls : CaseBody.Calls overhangImage (-5) 1 :=
    .inl ⟨⟨by decide, 0x60, rfl, rfl⟩, ⟨by decide, 24, rfl, rfl⟩⟩
  have hnames : (tightFile "FE00").names = .ok (.ofList [(1, "FooHandler")]) := rfl
  have hname : (tightFile "FE00").NamesSlot 1 "FooHandler" :=
    (MapFile.names_get?_eq_some_iff hnames).1 rfl
  have hbound := (hget 2 "FooHandler").2 ⟨-5, 1, hleads, hcalls, hname⟩
  cases hbound

end Extraction

end OpcodeAtlas
