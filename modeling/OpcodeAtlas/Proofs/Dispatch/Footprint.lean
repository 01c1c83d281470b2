import OpcodeAtlas.Proofs.Dispatch.Cases
import OpcodeAtlas.Proofs.Dispatch.HeaderField
import OpcodeAtlas.Proofs.Image.Agreement

/-!
# OpcodeAtlas.Proofs.Dispatch.Footprint — the bytes that decoding looks at

Decoding finds out on its way what it looks at next: the numbers of the header tell where the table
stands, its entries tell where the bodies stand, and in a body one byte tells the width of the
operand. `Layout.Consults` collects all these positions for an image.

* `readHeader_congr`, `readTarget_congr`, `slot_congr` — each kind of read depends on its own window;
* `resume_succ_congr`, `resume_congr` — a step of two walks, and two whole walks, over entries that
  tell the same in both images (`SwitchHeader.SameEntry`);
* `decode_congr` — an image that agrees where decoding looks is decoded alike.
-/

namespace OpcodeAtlas

variable {image image' : Image}

/-! ## Bodies -/

namespace CaseBody

/-- The operand is looked for in five bytes, the first of which tells its width. -/
theorem vtableOffset_congr {body : Nat}
    (h : image.AgreeOn image' (Image.extent (body + 9) 5)) :
    vtableOffset image body = vtableOffset image' body := by
  have hwindow : ∀ distance width : Nat, 0 < width → 9 ≤ distance → distance + width ≤ 14 →
      image.readBytes (Offset.saturatingAdd body distance) width =
        image'.readBytes (Offset.saturatingAdd body distance) width := by
    intro distance width hwidth hstart hend
    refine Image.AgreeOn.readBytes_saturating hwidth (h.mono ?_)
    intro position hposition
    rw [Image.mem_extent] at hposition ⊢
    omega
  have hmodRM := hwindow modRMOffset 1 (by decide) (by decide) (by decide)
  have hbyte := hwindow operandOffset 1 (by decide) (by decide) (by decide)
  have hword := hwindow operandOffset 4 (by decide) (by decide) (by decide)
  simp only [vtableOffset, Image.readU8, Image.readI32, hmodRM, hbyte, hword]

theorem slot_congr {target : Int}
    (h : image.AgreeOn image' (Image.extent (target + 9) 5)) :
    CaseBody.slot image target = CaseBody.slot image' target := by
  unfold CaseBody.slot classify
  rw [h.offsetOf target]
  cases hbody : (image'.offsetOf target).mapError (CaseAnomaly.outside target) with
  | error e => rfl
  | ok body =>
    obtain ⟨rfl, -⟩ := Image.offsetOf_eq_ok_iff.1 (Outcome.mapError_eq_ok.1 hbody)
    rw [Outcome.ok_bind, Outcome.ok_bind, vtableOffset_congr h]

end CaseBody

/-! ## Table entries and walks -/

namespace SwitchHeader

variable {h : SwitchHeader} {index : Nat}

/-- The table entry with an index tells the same in both images: it leads to the same place, and
past the default case the body there tells the same slot. -/
structure SameEntry (h : SwitchHeader) (image image' : Image) (index : Nat) : Prop where
  target : h.readTarget image index = h.readTarget image' index
  slot : ∀ target, h.readTarget image index = .ok target → target ≠ h.defaultCase →
    CaseBody.slot image target = CaseBody.slot image' target

theorem readTarget_congr
    (hwindow : image.AgreeOn image' (Image.extent (h.tableStart + 4 * index) 4)) :
    h.readTarget image index = h.readTarget image' index := by
  rw [readTarget, readTarget, entryPosition_eq, hwindow.readI32At]

end SwitchHeader

namespace Walk

variable {h : SwitchHeader}

/-- After an entry that tells the same in both images, two walks have found the same or failed
alike. -/
theorem resume_succ_congr {remaining index : Nat} {found : List Case}
    (hentry : h.SameEntry image image' index)
    (hrest : ∀ found, resume h image remaining (index + 1) found =
      resume h image' remaining (index + 1) found) :
    resume h image (remaining + 1) index found =
      resume h image' (remaining + 1) index found := by
  rw [resume, resume, ← hentry.target]
  cases hread : h.readTarget image index with
  | error failure => rfl
  | ok target =>
    by_cases hdefault : target = h.defaultCase
    · simp only [hdefault, if_true]
      exact hrest found
    · have hcase : h.caseAt image index target = h.caseAt image' index target := by
        unfold SwitchHeader.caseAt
        rw [hentry.slot target hread hdefault]
      simp only [hdefault, if_false, hcase]
      exact hrest _

/-- Two walks over entries that tell the same in both images come to the same end. -/
theorem resume_congr {remaining index : Nat} {found : List Case}
    (hentries : ∀ j < remaining, h.SameEntry image image' (index + j)) :
    resume h image remaining index found = resume h image' remaining index found := by
  induction remaining generalizing index found with
  | zero => rfl
  | succ remaining ih =>
    refine resume_succ_congr (hentries 0 (Nat.succ_pos remaining)) fun found => ih ?_
    intro j hj
    rw [show index + 1 + j = index + (j + 1) by omega]
    exact hentries (j + 1) (by omega)

theorem ofHeader_congr
    (hentries : ∀ i : Nat, (i : Int) ≤ h.count → h.SameEntry image image' i) :
    ofHeader h image = ofHeader h image' := by
  rcases lt_or_ge h.count 0 with hnegative | hcount
  · rw [ofHeader, ofHeader, if_pos hnegative, if_pos hnegative]
  · rw [ofHeader_of_nonneg hcount, ofHeader_of_nonneg hcount]
    refine resume_congr fun j hj => ?_
    rw [Nat.zero_add]
    exact hentries j (by omega)

end Walk

/-! ## Decoding -/

namespace Layout

variable {layout : Layout} {policy : MismatchPolicy} {start : Nat} {h : SwitchHeader}

/-- Decoding looks at a position: a byte of a number of the header; a byte of the table, if the
header can be read; or one of the five bytes that tell the operand of a body to which the table
leads past the default case. -/
inductive Consults (layout : Layout) (image : Image) (start : Nat) (position : Int) : Prop where
  | header {f : HeaderField} (hf : f ∈ layout.headerFields start)
      (hmem : position ∈ Image.extent f.offset f.width)
  | table {h : SwitchHeader} (hread : layout.readHeader image start = .ok h)
      (hmem : position ∈ Image.extent h.tableStart (4 * (h.count + 1)))
  | body {h : SwitchHeader} {opcode target : Int} (hread : layout.readHeader image start = .ok h)
      (hleads : h.LeadsTo image opcode target)
      (hmem : position ∈ Image.extent (target + 9) 5)

theorem readHeader_congr
    (hfields : ∀ f ∈ layout.headerFields start,
      image.AgreeOn image' (Image.extent f.offset f.width)) :
    layout.readHeader image start = layout.readHeader image' start := by
  have hwindow : ∀ field distance width, 0 < width →
      ⟨field, start + distance, width⟩ ∈ layout.headerFields start →
      image.readBytes (Offset.saturatingAdd start distance) width =
        image'.readBytes (Offset.saturatingAdd start distance) width :=
    fun _ _ _ hwidth hf => Image.AgreeOn.readBytes_saturating hwidth (hfields _ hf)
  have hbias := hwindow .bias layout.bias 1 (by decide) (by simp [headerFields])
  have hcount := hwindow .count layout.count 4 (by decide) (by simp [headerFields])
  have hdefault := hwindow .defaultCase layout.defaultCase 4 (by decide) (by simp [headerFields])
  have hbase := hwindow .imageBase layout.imageBase 4 (by decide) (by simp [headerFields])
  have hdata := hwindow .tableData layout.tableData 4 (by decide) (by simp [headerFields])
  simp only [readHeader, Image.readI8, Image.readI32, Image.resolve, Image.span,
    Image.displacement, hbias, hcount, hdefault, hbase, hdata]

/-- Where two images agree on what decoding looks at, they agree entry by entry. -/
theorem sameEntry_of_agreeOn (hread : layout.readHeader image start = .ok h)
    (hagree : image.AgreeOn image' {position | layout.Consults image start position}) {i : Nat}
    (hi : (i : Int) ≤ h.count) : h.SameEntry image image' i where
  target := by
    refine SwitchHeader.readTarget_congr (hagree.mono fun position hposition => ?_)
    rw [Image.mem_extent] at hposition
    exact .table hread ⟨by omega, by omega⟩
  slot := by
    intro target htarget hother
    have hstands := (SwitchHeader.readTarget_eq_ok_iff.1 htarget).2
    have hleads : h.LeadsTo image (i - h.bias) target :=
      ⟨i, hi, rfl, target - h.imageBase, hstands, by omega, hother⟩
    exact CaseBody.slot_congr (hagree.mono fun _ hposition => .body hread hleads hposition)

/-- Decoding depends on the length of the image and on the bytes that it looks at: on any image
that agrees there it gives the same cases or fails alike. -/
theorem decode_congr (layout : Layout) (policy : MismatchPolicy) {start : Nat}
    (hagree : image.AgreeOn image' {position | layout.Consults image start position}) :
    layout.decode policy image start = layout.decode policy image' start := by
  have hheader : layout.readHeader image start = layout.readHeader image' start :=
    readHeader_congr fun f hf => hagree.mono fun _ hposition => .header hf hposition
  rw [decode, decode, ← hheader]
  cases hread : layout.readHeader image start with
  | error e => rfl
  | ok h =>
    have hwalk : Walk.ofHeader h image = Walk.ofHeader h image' :=
      Walk.ofHeader_congr fun i hi => sameEntry_of_agreeOn hread hagree hi
    rw [Outcome.ok_bind, Outcome.ok_bind, hwalk]

/-- The switch of `tightSwitch 2` with other bytes in front of the operand of its body. -/
def paddedSwitch (padding : UInt8) : Image :=
  .ofList ([0xFE, 2, 0, 0, 0, 31, 0, 0, 0, 0xF3, 0xFF, 0xFF, 0xFF, 17, 0, 0, 0] ++
    [29, 0, 0, 0, 40, 0, 0, 0, 200, 0, 0, 0] ++ List.replicate 9 padding ++ [0x60, 24])

/-- The first nine bytes of a body do not matter. -/
theorem decode_congr_paddedSwitch :
    (tightSwitch 2).AgreeOn (paddedSwitch 7) {position | tight.Consults (tightSwitch 2) 0 position} ∧
      tight.decode .strict (paddedSwitch 7) 0 = .ok [⟨0, 2, 29, some 1⟩, ⟨2, 4, 200, none⟩] := by
  have hheader : tight.readHeader (tightSwitch 2) 0 = .ok ⟨-2, 2, 40, 0, 17⟩ := rfl
  have hbytes : ∀ offset : Nat, offset < 29 ∨ 38 ≤ offset →
      (tightSwitch 2).byte? offset = (paddedSwitch 7).byte? offset := by
    intro offset hoffset
    rcases lt_or_ge offset 40 with hinside | hpast
    · have hall : ∀ o < 40, o < 29 ∨ 38 ≤ o →
          (tightSwitch 2).byte? o = (paddedSwitch 7).byte? o := by decide
      exact hall offset hinside hoffset
    · exact (Array.getElem?_eq_none hpast).trans (Array.getElem?_eq_none hpast).symm
  have hagree : (tightSwitch 2).AgreeOn (paddedSwitch 7)
      {position | tight.Consults (tightSwitch 2) 0 position} := by
    refine ⟨rfl, fun offset hoffset => hbytes offset ?_⟩
    cases hoffset with
    | header hf hmem =>
      have hend : ∀ f ∈ tight.headerFields 0, f.offset + f.width ≤ 17 := by decide
      have hlast := hend _ hf
      rw [Image.mem_extent] at hmem
      omega
    | table hread hmem =>
      obtain rfl := Except.ok.inj (hheader.symm.trans hread)
      change (17 : Int) ≤ offset ∧ (offset : Int) < 17 + 4 * (2 + 1) at hmem
      omega
    | body hread hleads hmem =>
      obtain rfl := Except.ok.inj (hheader.symm.trans hread)
      -- Where the table leads are the targets of the decoded cases.
      have hwalk : (Walk.ofHeader ⟨-2, 2, 40, 0, 17⟩ (tightSwitch 2)).result =
          .ok [⟨0, 2, 29, some 1⟩, ⟨2, 4, 200, none⟩] := rfl
      obtain ⟨c, hc, -, rfl⟩ :=
        (exists_case_iff hwalk (P := fun t _ => t = _)).2 ⟨_, hleads, rfl⟩
      have htargets : ∀ c ∈ [Case.mk 0 2 29 (some 1), Case.mk 2 4 200 none],
          29 ≤ c.target := by decide
      have htarget := htargets c hc
      rw [Image.mem_extent] at hmem
      omega
  refine ⟨hagree, ?_⟩
  rw [← decode_congr tight .strict hagree]
  rfl

end Layout

end OpcodeAtlas
