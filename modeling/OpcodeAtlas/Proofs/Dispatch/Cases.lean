import Mathlib.Order.Bounds.Basic
import OpcodeAtlas.Proofs.Dispatch.Walk

/-!
# OpcodeAtlas.Proofs.Dispatch.Cases — what decoding gives back

Decoding reads the header, checks the highest index and walks the table:

* `decode_cases_exact` — when it succeeds, its cases are those entries of the table that lead past
  the default case, each once and by ascending index and opcode; it never fails on account of the
  body of a case;
* `decode_table_bounds` — it succeeds exactly when the table lies in the image, and otherwise the
  failure names the position where the table leaves the image.
-/

namespace OpcodeAtlas

namespace SwitchHeader

variable {h : SwitchHeader} {image : Image}

/-- The table sends the opcode to the target, past the default case. -/
def LeadsTo (h : SwitchHeader) (image : Image) (opcode target : Int) : Prop :=
  ∃ i : Nat, (i : Int) ≤ h.count ∧ opcode = i - h.bias ∧
    ∃ relative, image.SignedAt 4 (h.tableStart + 4 * i) relative ∧
      target = h.imageBase + relative ∧ target ≠ h.defaultCase

/-- A table entry can be read when its four bytes lie in the image. -/
theorem readable_iff_inside (himage : image.Addressable) {index : Nat} :
    h.Readable image index ↔
      0 ≤ h.tableStart + 4 * index ∧ h.tableStart + 4 * index + 4 ≤ image.size := by
  rw [readable_iff]
  constructor
  · intro hex
    rcases hex with ⟨relative, hread⟩
    have hstands := (Image.readI32At_eq_ok_iff.1 hread).2
    exact ⟨hstands.1, hstands.2.1⟩
  · intro hex
    rcases hex with ⟨hstart, hend⟩
    exact ⟨_, himage.readI32At_eq_ok ⟨hstart, hend, rfl⟩⟩

/-- Every entry of a table can be read when its first and its last one can. -/
theorem table_readable_iff (himage : image.Addressable) (hcount : 0 ≤ h.count) :
    (∀ i : Nat, (i : Int) ≤ h.count → h.Readable image i) ↔
      0 ≤ h.tableStart ∧ h.tableStart + 4 * (h.count + 1) ≤ image.size := by
  simp only [readable_iff_inside himage]
  constructor
  · intro hall
    have hfirst := hall 0 (by omega)
    have hlast := hall h.count.toNat (by omega)
    omega
  · rintro ⟨hstart, hend⟩ i hi
    omega

/-- Of two cases the one kept for the smaller index has the smaller index and opcode. -/
theorem case?_lt {i j : Nat} {c c' : Case} (hlt : i < j) (hc : h.case? image i = some c)
    (hc' : h.case? image j = some c') : c.index < c'.index ∧ c.opcode < c'.opcode := by
  rcases case?_eq_some_iff.1 hc with ⟨target, -, -, rfl⟩
  rcases case?_eq_some_iff.1 hc' with ⟨target', -, -, rfl⟩
  simp only [caseAt, opcode]
  omega

end SwitchHeader

namespace Layout

variable {layout : Layout} {policy : MismatchPolicy} {image : Image} {start : Nat}
  {h : SwitchHeader}

/-! ## Decoding as a walk -/

/-- Behind a header that can be read and is not refused there is only the walk. -/
theorem decode_of_readHeader (hread : layout.readHeader image start = .ok h)
    (hcheck : layout.checkCount policy h = .ok ()) :
    layout.decode policy image start = (Walk.ofHeader h image).result := by
  rw [decode, hread, Outcome.ok_bind, hcheck, Outcome.ok_bind]

theorem decode_eq_ok_iff {cases : List Case} :
    layout.decode policy image start = .ok cases ↔
      ∃ h, layout.readHeader image start = .ok h ∧ layout.checkCount policy h = .ok () ∧
        (Walk.ofHeader h image).result = .ok cases := by
  constructor
  · intro hdecode
    rcases Outcome.bind_eq_ok.1 hdecode with ⟨h, hread, hrest⟩
    rcases Outcome.bind_eq_ok.1 hrest with ⟨_, hcheck, hwalk⟩
    exact ⟨h, hread, hcheck, hwalk⟩
  · intro hex
    rcases hex with ⟨h, hread, hcheck, hwalk⟩
    rw [decode_of_readHeader hread hcheck, hwalk]

/-- The cases of a walk that came to its end, by what stands in the table. -/
theorem mem_cases_iff {cases : List Case} (hwalk : (Walk.ofHeader h image).result = .ok cases)
    {c : Case} :
    c ∈ cases ↔ ∃ i : Nat, (i : Int) ≤ h.count ∧ ∃ relative,
      image.SignedAt 4 (h.tableStart + 4 * i) relative ∧
      h.imageBase + relative ≠ h.defaultCase ∧
      c = h.caseAt image i (h.imageBase + relative) := by
  rcases lt_or_ge h.count 0 with hnegative | hcount
  · rw [Walk.result_of_negative hnegative] at hwalk
    cases hwalk
    constructor
    · intro hmem
      simp at hmem
    · intro hex
      rcases hex with ⟨i, hi, -⟩
      omega
  · rcases (Walk.result_eq_ok_iff hcount).1 hwalk with ⟨hreads, rfl⟩
    rw [List.mem_filterMap]
    constructor
    · intro hex
      rcases hex with ⟨i, hmem, hcase⟩
      rcases SwitchHeader.case?_eq_some_iff.1 hcase with ⟨target, hread, hother, rfl⟩
      -- The walk knows the target, the table its distance from the image base.
      have hstands := (SwitchHeader.readTarget_eq_ok_iff.1 hread).2
      rw [List.mem_range] at hmem
      have hsum : h.imageBase + (target - h.imageBase) = target := by omega
      exact ⟨i, by omega, _, hstands, by rwa [hsum], by rw [hsum]⟩
    · intro hex
      rcases hex with ⟨i, hi, relative, hstands, hother, rfl⟩
      refine ⟨i, List.mem_range.2 (by omega), SwitchHeader.case?_eq_some_iff.2 ⟨_, ?_, hother, rfl⟩⟩
      rcases hreads i hi with ⟨target, hread⟩
      have hsame := (SwitchHeader.readTarget_eq_ok_iff.1 hread).2.unique hstands
      rw [hread, ← hsame, show h.imageBase + (target - h.imageBase) = target by omega]

/-- The cases of a walk that came to its end are where the table leads. -/
theorem exists_case_iff {cases : List Case} (hwalk : (Walk.ofHeader h image).result = .ok cases)
    {P : Int → Option Int → Prop} {opcode : Int} :
    (∃ c ∈ cases, c.opcode = opcode ∧ P c.target c.slot) ↔
      ∃ target, h.LeadsTo image opcode target ∧ P target (CaseBody.slot image target) := by
  constructor
  · intro hex
    rcases hex with ⟨c, hmem, rfl, hc⟩
    rcases (mem_cases_iff hwalk).1 hmem with ⟨i, hi, relative, hstands, hother, rfl⟩
    exact ⟨_, ⟨i, hi, rfl, relative, hstands, rfl, hother⟩, hc⟩
  · intro hex
    rcases hex with ⟨_, ⟨i, hi, rfl, relative, hstands, rfl, hother⟩, hc⟩
    exact ⟨_, (mem_cases_iff hwalk).2 ⟨i, hi, relative, hstands, hother, rfl⟩, rfl, hc⟩

theorem pairwise_cases {cases : List Case}
    (hwalk : (Walk.ofHeader h image).result = .ok cases) :
    cases.Pairwise fun c c' => c.index < c'.index ∧ c.opcode < c'.opcode := by
  rcases lt_or_ge h.count 0 with hnegative | hcount
  · rw [Walk.result_of_negative hnegative] at hwalk
    cases hwalk
    exact List.Pairwise.nil
  · rcases (Walk.result_eq_ok_iff hcount).1 hwalk with ⟨-, rfl⟩
    rw [List.pairwise_filterMap]
    refine List.pairwise_lt_range.imp ?_
    intro i j hlt c hc c' hc'
    exact SwitchHeader.case?_lt hlt hc hc'

/-! ## The cases -/

/-- A decoded switch has one case for each table entry that leads past the default case and no
other, by strictly ascending index and opcode. What decoding needs of the image behind the header is
the table alone: where every entry can be read it succeeds, whatever the bodies hold. -/
theorem decode_cases_exact (layout : Layout) (policy : MismatchPolicy) (image : Image)
    (start : Nat) :
    (∀ cases, layout.decode policy image start = .ok cases →
      ∃ h, layout.readHeader image start = .ok h ∧
        (h.count < 0 → cases = []) ∧
        (∀ i : Nat, (i : Int) ≤ h.count →
          ∃ relative, image.SignedAt 4 (h.tableStart + 4 * i) relative) ∧
        (∀ c, c ∈ cases ↔ ∃ i : Nat, (i : Int) ≤ h.count ∧ ∃ relative,
          image.SignedAt 4 (h.tableStart + 4 * i) relative ∧
          h.imageBase + relative ≠ h.defaultCase ∧
          c = { index := i, opcode := i - h.bias, target := h.imageBase + relative,
                slot := CaseBody.slot image (h.imageBase + relative) }) ∧
        cases.Pairwise (fun c c' => c.index < c'.index) ∧
        cases.Pairwise (fun c c' => c.opcode < c'.opcode)) ∧
    (∀ h, layout.readHeader image start = .ok h → layout.checkCount policy h = .ok () →
      (∀ i : Nat, (i : Int) ≤ h.count →
        ∃ relative, image.readI32At (h.tableStart + 4 * i) = .ok relative) →
      ∃ cases, layout.decode policy image start = .ok cases) := by
  constructor
  · intro cases hdecode
    rcases decode_eq_ok_iff.1 hdecode with ⟨h, hread, -, hwalk⟩
    have hpairwise := pairwise_cases hwalk
    refine ⟨h, hread, ?_, ?_, fun c => mem_cases_iff hwalk, hpairwise.imp And.left,
      hpairwise.imp And.right⟩
    · intro hnegative
      rw [Walk.result_of_negative hnegative] at hwalk
      exact (Except.ok.inj hwalk).symm
    · intro i hi
      rcases ((Walk.result_eq_ok_iff (by omega)).1 hwalk).1 i hi with ⟨target, htarget⟩
      exact ⟨_, (SwitchHeader.readTarget_eq_ok_iff.1 htarget).2⟩
  · intro h hread hcheck hentries
    rw [decode_of_readHeader hread hcheck]
    rcases lt_or_ge h.count 0 with hnegative | hcount
    · exact ⟨[], Walk.result_of_negative hnegative⟩
    · exact ⟨_, Walk.result_of_readable hcount
        fun i hi => SwitchHeader.readable_iff.2 (hentries i hi)⟩

/-- A layout whose five numbers stand side by side, with nothing else between them. -/
def tight : Layout :=
  { bias := 0, count := 1, defaultCase := 5, imageBase := 9, tableData := 13,
    expectedCount := none }

/-- A switch with three entries: one leads to a body behind the table, one to the default case and
one out of the image. -/
def tightSwitch (count : UInt8) : Image :=
  .ofList ([0xFE, count, 0, 0, 0, 31, 0, 0, 0, 0xF3, 0xFF, 0xFF, 0xFF, 17, 0, 0, 0] ++
    [29, 0, 0, 0, 40, 0, 0, 0, 200, 0, 0, 0] ++ [0, 0, 0, 0, 0, 0, 0, 0, 0, 0x60, 24])

/-- A case whose body cannot be read is kept; the entry that leads to the default case is not. -/
theorem decode_cases_exact_tightSwitch :
    ∃ cases, tight.decode .strict (tightSwitch 2) 0 = .ok cases ∧
      { index := 2, opcode := 4, target := 200, slot := none } ∈ cases ∧
      ∀ c ∈ cases, c.index ≠ 1 := by
  rcases decode_cases_exact tight .strict (tightSwitch 2) 0 with ⟨hexact, hsucceeds⟩
  have hheader : tight.readHeader (tightSwitch 2) 0 = .ok ⟨-2, 2, 40, 0, 17⟩ := rfl
  obtain ⟨cases, hdecode⟩ := hsucceeds _ hheader rfl (by
    intro i hi
    change (i : Int) ≤ 2 at hi
    obtain rfl | rfl | rfl : i = 0 ∨ i = 1 ∨ i = 2 := by omega
    · exact ⟨29, rfl⟩
    · exact ⟨40, rfl⟩
    · exact ⟨200, rfl⟩)
  rcases hexact cases hdecode with ⟨h, hread, -, -, hmem, -⟩
  obtain rfl : ⟨-2, 2, 40, 0, 17⟩ = h := Except.ok.inj (hheader.symm.trans hread)
  refine ⟨cases, hdecode, ?_, ?_⟩
  · have hlast : (tightSwitch 2).readI32At 25 = .ok 200 := rfl
    have hstands := (Image.readI32At_eq_ok_iff.1 hlast).2
    exact (hmem _).2 ⟨2, by decide, 200, hstands, by decide, rfl⟩
  · rintro c hc hindex
    rcases (hmem c).1 hc with ⟨i, -, relative, hstands, hother, rfl⟩
    obtain rfl : i = 1 := hindex
    have hmiddle : (tightSwitch 2).readI32At 21 = .ok 40 := rfl
    obtain rfl : relative = 40 := hstands.unique (Image.readI32At_eq_ok_iff.1 hmiddle).2
    exact hother rfl

/-! ## The bounds of the table -/

/-- Decoding succeeds when the whole table lies in the image, and only then. -/
theorem exists_cases_iff_inside (himage : image.Addressable)
    (hread : layout.readHeader image start = .ok h)
    (hcheck : layout.checkCount policy h = .ok ()) (hcount : 0 ≤ h.count) :
    (∃ cases, layout.decode policy image start = .ok cases) ↔
      0 ≤ h.tableStart ∧ h.tableStart + 4 * (h.count + 1) ≤ image.size := by
  rw [← SwitchHeader.table_readable_iff himage hcount, decode_of_readHeader hread hcheck]
  constructor
  · intro hex
    rcases hex with ⟨cases, hwalk⟩
    exact ((Walk.result_eq_ok_iff hcount).1 hwalk).1
  · intro hreads
    exact ⟨_, Walk.result_of_readable hcount hreads⟩

/-- A table that starts outside the image fails at its first entry. -/
theorem decode_of_start_outside (hread : layout.readHeader image start = .ok h)
    (hcheck : layout.checkCount policy h = .ok ()) (hcount : 0 ≤ h.count) {cause : ReadError}
    (hcause : image.readI32At h.tableStart = .error cause) :
    layout.decode policy image start = .error (.unreadable .tableEntry cause) := by
  have hentry : image.readI32At (h.tableStart + 4 * (0 : Nat)) = .error cause := by
    simpa using hcause
  rw [decode_of_readHeader hread hcheck]
  refine Walk.result_of_unreadable hcount (i := 0) (by omega) ?_
    (SwitchHeader.readTarget_eq_error hentry)
  intro j hj
  omega

/-- The first entry that leaves the image starts in it, and is told as four bytes too long. -/
theorem decode_of_first_outside (himage : image.Addressable)
    (hread : layout.readHeader image start = .ok h)
    (hcheck : layout.checkCount policy h = .ok ()) (hcount : 0 ≤ h.count)
    (hstart : 0 ≤ h.tableStart) (hinside : h.tableStart ≤ image.size) {i : Nat}
    (hi : (i : Int) ≤ h.count)
    (hleast : IsLeast {i : Nat | (image.size : Int) < h.tableStart + 4 * i + 4} i) :
    layout.decode policy image start = .error (.unreadable .tableEntry
      (.outOfRange (h.tableStart + 4 * i).toNat 4 image.size)) := by
  rcases hleast with ⟨houtside, hmin⟩
  have hbefore : ∀ j < i, h.tableStart + 4 * j + 4 ≤ image.size := by
    intro j hj
    by_contra hout
    have hle : i ≤ j := hmin (show (image.size : Int) < h.tableStart + 4 * j + 4 by omega)
    omega
  -- The entry before it ends where this one starts.
  have hposition : h.tableStart + 4 * i ≤ image.size := by
    rcases Nat.eq_zero_or_pos i with rfl | hpos
    · omega
    · have hprevious := hbefore (i - 1) (by omega)
      omega
  rw [decode_of_readHeader hread hcheck]
  refine Walk.result_of_unreadable hcount hi (fun j hj => ?_) (SwitchHeader.readTarget_eq_error ?_)
  · have hend := hbefore j hj
    exact (SwitchHeader.readable_iff_inside himage).2 ⟨by omega, hend⟩
  · exact Image.readI32At_truncated (by omega) hposition houtside

/-- Behind a header that can be read and is not refused, decoding succeeds exactly when the whole
table lies in the image. Otherwise it fails at the first entry that does not, and the cause tells
how: the table starts in front of the image, behind its end, or runs over its end. No list of cases
comes with a failure, and a highest index too great for the image always fails. -/
theorem decode_table_bounds (himage : image.Addressable)
    (hread : layout.readHeader image start = .ok h)
    (hcheck : layout.checkCount policy h = .ok ()) (hcount : 0 ≤ h.count) :
    ((∃ cases, layout.decode policy image start = .ok cases) ↔
      0 ≤ h.tableStart ∧ h.tableStart + 4 * (h.count + 1) ≤ image.size) ∧
    (h.tableStart < 0 → layout.decode policy image start =
      .error (.unreadable .tableEntry (.negativePosition h.tableStart))) ∧
    ((image.size : Int) < h.tableStart → layout.decode policy image start =
      .error (.unreadable .tableEntry (.outOfRange h.tableStart.toNat 0 image.size))) ∧
    (0 ≤ h.tableStart → h.tableStart ≤ image.size →
      (image.size : Int) < h.tableStart + 4 * (h.count + 1) →
      ∃ i : Nat, IsLeast {i : Nat | (image.size : Int) < h.tableStart + 4 * i + 4} i ∧
        layout.decode policy image start = .error (.unreadable .tableEntry
          (.outOfRange (h.tableStart + 4 * i).toNat 4 image.size))) ∧
    (image.size / 4 < h.count + 1 → ∀ cases, layout.decode policy image start ≠ .ok cases) ∧
    DispatchField.tableEntry.name = "jump table entry" := by
  have hok := exists_cases_iff_inside himage hread hcheck hcount
  refine ⟨hok, ?_, ?_, ?_, ?_, rfl⟩
  · intro hnegative
    exact decode_of_start_outside hread hcheck hcount (Image.readI32At_negative hnegative)
  · intro hpast
    exact decode_of_start_outside hread hcheck hcount (Image.readI32At_past_end hpast)
  · intro hstart hinside hover
    have hex : ∃ i : Nat, (image.size : Int) < h.tableStart + 4 * i + 4 :=
      ⟨h.count.toNat, by omega⟩
    have hleast :
        IsLeast {i : Nat | (image.size : Int) < h.tableStart + 4 * i + 4} (Nat.find hex) :=
      ⟨Nat.find_spec hex, fun j hj => Nat.find_min' hex hj⟩
    have hi : Nat.find hex ≤ h.count.toNat :=
      Nat.find_min' hex (show (image.size : Int) < h.tableStart + 4 * h.count.toNat + 4 by omega)
    exact ⟨_, hleast, decode_of_first_outside himage hread hcheck hcount hstart hinside (by omega)
      hleast⟩
  · intro hlarge cases hdecode
    have hbounds := hok.1 ⟨cases, hdecode⟩
    omega

/-- A highest index that is too great is told at the first entry that leaves the image. -/
theorem decode_table_bounds_tightSwitch :
    tight.decode .strict (tightSwitch 9) 0 =
      .error (.unreadable .tableEntry (.outOfRange 37 4 40)) := by
  have hsize : (tightSwitch 9).size = 40 := by decide
  have hread : tight.readHeader (tightSwitch 9) 0 = .ok ⟨-2, 9, 40, 0, 17⟩ := rfl
  have hcheck : tight.checkCount .strict ⟨-2, 9, 40, 0, 17⟩ = .ok () := rfl
  have himage : (tightSwitch 9).Addressable := by decide
  have hbounds := decode_table_bounds himage hread hcheck (by decide)
  rcases hbounds.2.2.2.1 (by decide) (by decide) (by decide) with ⟨i, ⟨houtside, hmin⟩, hdecode⟩
  have hfive : i ≤ 5 := hmin (show ((tightSwitch 9).size : Int) < 17 + 4 * 5 + 4 by decide)
  change ((tightSwitch 9).size : Int) < 17 + 4 * i + 4 at houtside
  obtain rfl : i = 5 := by omega
  exact hdecode

end Layout

end OpcodeAtlas
