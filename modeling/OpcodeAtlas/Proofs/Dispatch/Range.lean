import OpcodeAtlas.Proofs.Dispatch.Call
import OpcodeAtlas.Proofs.Dispatch.Cases
import OpcodeAtlas.Proofs.Image.Width
import OpcodeAtlas.Proofs.Opcode.Dump

/-!
# OpcodeAtlas.Proofs.Dispatch.Range — no number on the way is too large

Positions, opcodes and slots are sums of what stands in an image. In an image of less than `2 ^ 62`
bytes none of them leaves the width that it is kept in, whatever the image holds:

* `fits_of_readHeader` — the numbers of a header and the start of its table (`SwitchHeader.Fits`);
* `fitsAt_of_readHeader` — what is computed for one table index (`SwitchHeader.FitsAt`);
* `fits_of_vtableOffset`, `fits_of_slot` — the vtable offset of a body and its slot;
* `decoding_fits` — all of these, and the opcodes of what the cases record.
-/

namespace OpcodeAtlas

variable {image : Image}

namespace SwitchHeader

/-- The numbers of a header fit: the bias one byte, what stands in four bytes these, and what is
added up eight bytes. -/
structure Fits (h : SwitchHeader) : Prop where
  bias : FitsWidth 1 h.bias
  count : FitsWidth 4 h.count
  tableData : FitsWidth 4 h.tableData
  defaultCase : FitsWidth 8 h.defaultCase
  imageBase : FitsWidth 8 h.imageBase
  tableStart : FitsWidth 8 h.tableStart

/-- What is computed for a table index fits: the index four bytes, all else eight bytes. -/
structure FitsAt (h : SwitchHeader) (image : Image) (i : Nat) : Prop where
  index : FitsWidth 4 i
  distance : FitsWidth 8 (i * entryWidth)
  entryPosition : FitsWidth 8 (h.entryPosition i)
  target : ∀ target, h.readTarget image i = .ok target → FitsWidth 8 target
  opcode : FitsWidth 8 (h.opcode i)

/-- The opcode of an index differs from it by one signed byte. -/
theorem Fits.opcode_bounds {h : SwitchHeader} (hfits : h.Fits) {index : Nat}
    (hindex : (index : Int) ≤ h.count) :
    -127 ≤ h.opcode index ∧ h.opcode index ≤ 2 ^ 31 - 1 + 128 := by
  have hbias := fitsWidth_one.1 hfits.bias
  have hcount := fitsWidth_four.1 hfits.count
  unfold opcode
  omega

end SwitchHeader

namespace Layout

variable {layout : Layout} {start : Nat} {h : SwitchHeader}

/-! ## Headers -/

theorem fits_of_readHeader (hsize : image.size < 2 ^ 62)
    (hread : layout.readHeader image start = .ok h) : h.Fits := by
  have hdescribes := describes_of_readHeader hread
  have hdefault := hdescribes.defaultCase.reference_bounds
  have hbase := hdescribes.imageBase.reference_bounds
  have hdata := hdescribes.tableData.fitsWidth (by decide)
  have hdata' := fitsWidth_four.1 hdata
  exact {
    bias := hdescribes.bias.fitsWidth (by decide)
    count := hdescribes.count.fitsWidth (by decide)
    tableData := hdata
    defaultCase := fitsWidth_eight.2 (by omega)
    imageBase := fitsWidth_eight.2 (by omega)
    tableStart := fitsWidth_eight.2 (by unfold SwitchHeader.tableStart; omega) }

/-! ## Table entries -/

theorem fitsAt_of_readHeader (hsize : image.size < 2 ^ 62)
    (hread : layout.readHeader image start = .ok h) {index : Nat}
    (hindex : (index : Int) ≤ h.count) : h.FitsAt image index := by
  have hfits := fits_of_readHeader hsize hread
  have hcount := fitsWidth_four.1 hfits.count
  have hdata := fitsWidth_four.1 hfits.tableData
  have hopcode := hfits.opcode_bounds hindex
  -- The image base lies near the image, which leaves room for what is added to it.
  have hbase := (describes_of_readHeader hread).imageBase.reference_bounds
  have hposition : FitsWidth 8 (h.entryPosition index) := by
    rw [SwitchHeader.entryPosition_eq, SwitchHeader.tableStart]
    exact fitsWidth_eight.2 (by omega)
  have htarget : ∀ target, h.readTarget image index = .ok target → FitsWidth 8 target := by
    intro target htarget
    have hstands := (SwitchHeader.readTarget_eq_ok_iff.1 htarget).2
    have hrelative := fitsWidth_four.1 (hstands.fitsWidth (by decide))
    exact fitsWidth_eight.2 (by omega)
  exact {
    index := fitsWidth_four.2 (by omega)
    distance := fitsWidth_eight.2 (by unfold SwitchHeader.entryWidth; omega)
    entryPosition := hposition
    target := htarget
    opcode := fitsWidth_eight.2 (by omega) }

end Layout

/-! ## Bodies -/

namespace CaseBody

/-- The operand of a body, its quotient by the width of a vtable entry, and the slot. -/
theorem fits_of_vtableOffset (himage : image.Addressable) {body : Nat} {offset : Int}
    (h : vtableOffset image body = .ok offset) :
    FitsWidth 4 offset ∧ FitsWidth 4 (offset / vtableEntryWidth) ∧
      FitsWidth 4 (offset / vtableEntryWidth - reservedSlots) := by
  have hoffset : FitsWidth 4 offset := by
    rcases (vtableOffset_eq_ok_iff himage).1 h with ⟨-, hbyte⟩ | ⟨-, hword⟩
    · have hbounds := hbyte.bounds
      exact fitsWidth_four.2 (by omega)
    · exact hword.fitsWidth (by decide)
  have hbounds := fitsWidth_four.1 hoffset
  unfold vtableEntryWidth reservedSlots
  exact ⟨hoffset, fitsWidth_four.2 (by omega), fitsWidth_four.2 (by omega)⟩

theorem fits_of_slot (himage : image.Addressable) {target slot : Int}
    (h : CaseBody.slot image target = some slot) : FitsWidth 4 slot := by
  rcases ((slot_eq_some_iff himage).1 h).2 with ⟨-, hbyte⟩ | ⟨-, hword⟩
  · have hbounds := hbyte.bounds
    exact fitsWidth_four.2 (by omega)
  · have hbounds := fitsWidth_four.1 (hword.fitsWidth (by decide))
    exact fitsWidth_four.2 (by omega)

end CaseBody

/-! ## Decoding -/

namespace Layout

variable {layout : Layout} {policy : MismatchPolicy} {start : Nat}

/-- The opcode of a decoded case differs from its index by one signed byte. -/
theorem opcode_bounds_of_decode (hsize : image.size < 2 ^ 62) {cases : List Case}
    (hdecode : layout.decode policy image start = .ok cases) {c : Case} (hc : c ∈ cases) :
    -127 ≤ c.opcode ∧ c.opcode ≤ 2 ^ 31 - 1 + 128 := by
  rcases decode_eq_ok_iff.1 hdecode with ⟨h, hread, -, hwalk⟩
  rcases (mem_cases_iff hwalk).1 hc with ⟨i, hi, relative, -, -, rfl⟩
  exact (fits_of_readHeader hsize hread).opcode_bounds hi

/-- In an image of less than `2 ^ 62` bytes no number that decoding computes leaves its width: not
what resolves a reference, not the header, not the position, target and opcode of a table index
that is reached, not the operand of a body and its slot, and not the opcodes that cases record,
diagnostic ones included. -/
theorem decoding_fits (hsize : image.size < 2 ^ 62) (layout : Layout) (policy : MismatchPolicy)
    (start : Nat) (names : SlotNames) (dumpAll : Bool) :
    (∀ offset target, image.resolve offset = .ok target →
      FitsWidth 8 offset ∧ (∀ d, image.span offset = .ok d → FitsWidth 8 d) ∧
        FitsWidth 8 target) ∧
    (∀ h, layout.readHeader image start = .ok h →
      h.Fits ∧ ∀ i : Nat, (i : Int) ≤ h.count → h.FitsAt image i) ∧
    (∀ body offset, CaseBody.vtableOffset image body = .ok offset →
      FitsWidth 4 offset ∧ FitsWidth 4 (offset / vtableEntryWidth) ∧
        FitsWidth 4 (offset / vtableEntryWidth - reservedSlots)) ∧
    (∀ cases, layout.decode policy image start = .ok cases → ∀ c ∈ cases,
      (-127 ≤ c.opcode ∧ c.opcode ≤ 2 ^ 31 - 1 + 128) ∧
      FitsWidth 8 (c.opcode + diagnosticOffset) ∧
      (∀ slot, c.slot = some slot → FitsWidth 4 slot) ∧
      ∀ r ∈ caseRecords names dumpAll c, FitsWidth 8 r.1) := by
  have himage : image.Addressable := Image.addressable_of_size_lt hsize
  refine ⟨fun offset target => Image.fits_of_resolve hsize, ?_,
    fun body offset => CaseBody.fits_of_vtableOffset himage, ?_⟩
  · intro h hread
    exact ⟨fits_of_readHeader hsize hread, fun i hi => fitsAt_of_readHeader hsize hread hi⟩
  · intro cases hdecode c hc
    have hopcode := opcode_bounds_of_decode hsize hdecode hc
    have hdiagnostic : FitsWidth 8 (c.opcode + diagnosticOffset) := by
      unfold diagnosticOffset
      exact fitsWidth_eight.2 (by omega)
    have hslot : ∀ slot, c.slot = some slot → FitsWidth 4 slot := by
      rcases decode_eq_ok_iff.1 hdecode with ⟨h, -, -, hwalk⟩
      rcases (mem_cases_iff hwalk).1 hc with ⟨i, -, relative, -, -, rfl⟩
      intro slot hslot
      exact CaseBody.fits_of_slot himage hslot
    refine ⟨hopcode, hdiagnostic, hslot, fun r hr => ?_⟩
    rcases opcode_of_mem_caseRecords hr with hr | hr
    · rw [hr]
      exact fitsWidth_eight.2 (by omega)
    · rw [hr]
      exact hdiagnostic

/-- The last entry of a switch, its case and what the case records fit. -/
theorem decoding_fits_tightSwitch :
    SwitchHeader.FitsAt ⟨-2, 2, 40, 0, 17⟩ (tightSwitch 2) 2 ∧
      ∃ c, tight.decode .strict (tightSwitch 2) 0 = .ok [⟨0, 2, 29, some 1⟩, c] ∧
        c.opcode = 4 ∧ FitsWidth 8 (c.opcode + diagnosticOffset) := by
  have hsize : (tightSwitch 2).size < 2 ^ 62 := by decide
  rcases decoding_fits hsize tight .strict 0 .empty true with ⟨-, hheader, -, hcases⟩
  have hread : tight.readHeader (tightSwitch 2) 0 = .ok ⟨-2, 2, 40, 0, 17⟩ := rfl
  have hdecode : tight.decode .strict (tightSwitch 2) 0 =
      .ok [⟨0, 2, 29, some 1⟩, ⟨2, 4, 200, none⟩] := rfl
  have hlast := hcases _ hdecode ⟨2, 4, 200, none⟩ (by decide)
  exact ⟨(hheader _ hread).2 2 (by decide), _, hdecode, rfl, hlast.2.1⟩

end Layout

end OpcodeAtlas
