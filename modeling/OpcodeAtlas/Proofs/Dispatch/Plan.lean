import OpcodeAtlas.Proofs.Dispatch.ExpectedCount
import OpcodeAtlas.Proofs.Dispatch.Operand
import OpcodeAtlas.Proofs.Image.Patch

/-!
# OpcodeAtlas.Proofs.Dispatch.Plan — decoding undoes writing a switch

A `SwitchPlan` says what a switch is to be: its numbers, where each entry of its table leads, and
what the body at each target calls. Written into an image it makes strips of bytes
(`SwitchPlan.strips`): five fields behind the match, the table, and one body for each target that is
not the default case. The plan has room in an image (`SwitchPlan.Room`) when its strips lie in it,
none on another, and the distances that it stores fit their fields.

* `Room.describes`, `Room.readTarget`, `Room.slot` — what is read of the header, of an entry and of
  a body, each from the one strip that holds it;
* `Room.case?` — so the walk finds at an index what the plan puts there;
* `decode_patchAll` — decoding gives back the cases of the plan, whatever bytes stood there before
  and in whatever order the strips were written.
-/

namespace OpcodeAtlas

/-! ## Bodies -/

namespace CaseBody

/-- The operand of a body in one of its two shapes. -/
inductive Shape where
  | byte (offset : UInt8)
  | word (offset : Int32)
deriving DecidableEq

namespace Shape

/-- The vtable offset that a body of this shape calls. -/
def offset : Shape → Int
  | byte offset => offset.toNat
  | word offset => offset.toInt

/-- The byte that announces the shape, and the operand. -/
def chunks : Shape → List (List UInt8)
  | byte offset => [[0x60], [offset]]
  | word offset => [[0xA0], LittleEndian.bytesOf 4 offset.toInt]

/-- The slot at the vtable offset, two entries being reserved. -/
def slot (shape : Shape) : Option Int :=
  if 8 ∣ shape.offset then some (shape.offset / 8 - 2) else none

theorem slot_eq (shape : Shape) : shape.slot = slotOfVtableOffset shape.offset := by
  unfold slot slotOfVtableOffset vtableEntryWidth reservedSlots
  simp only [Int.dvd_iff_emod_eq_zero]

end Shape

/-- A body whose two strings stand in the image has the operand of its shape. -/
theorem operand_of_stands {image : Image} {target : Int} {shape : Shape} (hstart : 0 ≤ target)
    (h : ∀ p ∈ Strip.patches ⟨target.toNat + 9, shape.chunks⟩, image.Stands p) :
    Operand image target shape.offset := by
  have hnine : target + 9 = ((target.toNat + 9 : Nat) : Int) := by omega
  have hten : target + 10 = ((target.toNat + 9 + 1 : Nat) : Int) := by omega
  rw [Operand, hnine, hten]
  cases shape with
  | byte offset =>
    simp only [Shape.chunks, Strip.patches_pair, List.forall_mem_cons] at h
    rcases h with ⟨hshape, hoperand, -⟩
    exact .inl ⟨Image.byteAt_of_stands hshape, Image.byteAt_of_stands hoperand⟩
  | word offset =>
    simp only [Shape.chunks, Strip.patches_pair, List.forall_mem_cons] at h
    rcases h with ⟨hshape, hoperand, -⟩
    have hfits : FitsWidth 4 offset.toInt := fitsWidth_four.2 ⟨offset.le_toInt, offset.toInt_lt⟩
    exact .inr ⟨Image.byteAt_of_stands hshape,
      Image.signedAt_of_stands (by decide) hfits hoperand⟩

end CaseBody

/-! ## Plans -/

/-- What a switch is to be. Its table is not empty, and its highest index fits the field for it. -/
structure SwitchPlan where
  bias : Int8
  defaultCase : Int
  imageBase : Int
  tableData : Int32
  /-- Where each entry of the table leads. -/
  targets : List Int
  /-- What the body at a target calls, unless it is the default case. -/
  body : Int → CaseBody.Shape
  nonempty : 0 < targets.length
  bounded : targets.length ≤ 0x8000_0000

namespace SwitchPlan

variable (plan : SwitchPlan) (layout : Layout) (start : Nat)

/-- The header that describes the switch. -/
def header : SwitchHeader where
  bias := plan.bias.toInt
  count := plan.targets.length - 1
  defaultCase := plan.defaultCase
  imageBase := plan.imageBase
  tableData := plan.tableData.toInt

/-- The positions of the bodies; equal targets share one. -/
def bodies : List Int := (plan.targets.filter (· ≠ plan.defaultCase)).eraseDups

/-- The case that an entry of the table stands for, unless it leads to the default case. -/
def case? (index : Nat) (target : Int) : Option Case :=
  if target = plan.defaultCase then none
  else some { index, opcode := index - plan.bias.toInt, target, slot := (plan.body target).slot }

/-- The cases of the switch in the order of its table. -/
def cases : List Case := plan.targets.zipIdx.filterMap fun entry => plan.case? entry.2 entry.1

/-- The place of a number of the header, as a strip of its own. -/
def fieldStrip (offset width : Nat) (n : Int) : Strip := ⟨offset, [LittleEndian.bytesOf width n]⟩

/-- The numbers of the header where the layout wants them, the two references as distances from the
byte behind them. -/
def headerStrips : List Strip :=
  [fieldStrip (start + layout.bias) 1 plan.header.bias,
    fieldStrip (start + layout.count) 4 plan.header.count,
    fieldStrip (start + layout.defaultCase) 4
      (plan.header.defaultCase - (start + layout.defaultCase : Nat) - 4),
    fieldStrip (start + layout.imageBase) 4
      (plan.header.imageBase - (start + layout.imageBase : Nat) - 4),
    fieldStrip (start + layout.tableData) 4 plan.header.tableData]

/-- The entries of the table, each the distance of its target from the image base. -/
def tableStrip : Strip :=
  ⟨plan.header.tableStart.toNat,
    plan.targets.map fun target => LittleEndian.bytesOf 4 (target - plan.imageBase)⟩

/-- The shape and the operand of the body at a target. -/
def bodyStrip (target : Int) : Strip := ⟨target.toNat + 9, (plan.body target).chunks⟩

/-- Everything that is written for the switch. -/
def strips : List Strip :=
  plan.headerStrips layout start ++ plan.tableStrip :: plan.bodies.map plan.bodyStrip

/-- The patches that write the switch. -/
def patches : List Patch := (plan.strips layout start).flatMap Strip.patches

/-- The switch has room in an image of the given size. -/
structure Room (size : Nat) : Prop where
  /-- Header, table and bodies lie in the image. -/
  inside : ∀ strip ∈ plan.strips layout start, strip.stop ≤ size
  /-- None of them lies on another one. -/
  apart : (plan.strips layout start).Pairwise Strip.Apart
  table_nonneg : 0 ≤ plan.imageBase + plan.tableData.toInt
  target_nonneg : ∀ target ∈ plan.targets, target ≠ plan.defaultCase → 0 ≤ target
  defaultCase_fits :
    FitsWidth 4 (plan.defaultCase - (start + layout.defaultCase : Nat) - 4)
  imageBase_fits : FitsWidth 4 (plan.imageBase - (start + layout.imageBase : Nat) - 4)
  target_fits : ∀ target ∈ plan.targets, FitsWidth 4 (target - plan.imageBase)

variable {plan layout start}

theorem mem_bodies_iff {target : Int} :
    target ∈ plan.bodies ↔ target ∈ plan.targets ∧ target ≠ plan.defaultCase := by
  simp [bodies, List.mem_eraseDups]

namespace Room

variable {filler : Image} {patches : List Patch} (hroom : plan.Room layout start filler.size)
  (hperm : patches.Perm (plan.patches layout start))

include hroom hperm

/-- Once all patches are written, in whatever order, each string stands at its place. -/
theorem stands {strip : Strip} (hstrip : strip ∈ plan.strips layout start) :
    ∀ p ∈ strip.patches, (filler.patchAll patches).Stands p := by
  intro p hp
  have hmem : p ∈ plan.patches layout start := List.mem_flatMap.2 ⟨strip, hstrip, hp⟩
  have hapart : (plan.patches layout start).Pairwise Patch.Apart :=
    Strip.pairwise_flatMap_patches hroom.apart
  refine Image.stands_patchAll ((hperm.pairwise_iff fun {p q} h => h.symm).2 hapart) ?_
    (hperm.mem_iff.2 hmem)
  intro q hq
  rcases List.mem_flatMap.1 (hperm.mem_iff.1 hq) with ⟨owner, howner, hown⟩
  exact (Strip.bounds_of_mem_patches hown).2.trans (hroom.inside owner howner)

/-- A number of the header is found at its place. -/
theorem signedAt_field {offset width : Nat} {n : Int} (hwidth : 0 < width)
    (hfits : FitsWidth width n)
    (hfield : fieldStrip offset width n ∈ plan.headerStrips layout start) :
    (filler.patchAll patches).SignedAt width offset n := by
  refine Image.signedAt_of_stands hwidth hfits ?_
  refine hroom.stands hperm (List.mem_append_left _ hfield) _ ?_
  exact List.mem_cons_self ..

/-- The layout designates the header of the plan. -/
theorem describes : layout.Describes (filler.patchAll patches) start plan.header := by
  have hfour : 0 < 4 := by decide
  have hbias : FitsWidth 1 plan.header.bias :=
    fitsWidth_one.2 ⟨plan.bias.le_toInt, plan.bias.toInt_lt⟩
  have hcount : FitsWidth 4 plan.header.count := by
    have hnonempty := plan.nonempty
    have hbounded := plan.bounded
    change FitsWidth 4 ((plan.targets.length : Int) - 1)
    exact fitsWidth_four.2 ⟨by omega, by omega⟩
  have hdata : FitsWidth 4 plan.header.tableData :=
    fitsWidth_four.2 ⟨plan.tableData.le_toInt, plan.tableData.toInt_lt⟩
  constructor
  · exact hroom.signedAt_field hperm Nat.one_pos hbias (by simp [headerStrips])
  · exact hroom.signedAt_field hperm hfour hcount (by simp [headerStrips])
  · exact hroom.signedAt_field hperm hfour hroom.defaultCase_fits (by simp [headerStrips])
  · exact hroom.signedAt_field hperm hfour hroom.imageBase_fits (by simp [headerStrips])
  · exact hroom.signedAt_field hperm hfour hdata (by simp [headerStrips])

/-- The table entry with an index leads where the plan says. -/
theorem readTarget (himage : filler.Addressable) {index : Nat} {target : Int}
    (htarget : plan.targets[index]? = some target) :
    plan.header.readTarget (filler.patchAll patches) index = .ok target := by
  have htable : plan.tableStrip ∈ plan.strips layout start :=
    List.mem_append_right _ (List.mem_cons_self ..)
  have hwidth : ∀ chunk ∈ plan.tableStrip.chunks, chunk.length = 4 := by simp [tableStrip]
  have hchunk : plan.tableStrip.chunks[index]? =
      some (LittleEndian.bytesOf 4 (target - plan.imageBase)) := by
    simp [tableStrip, htarget]
  have hstands := hroom.stands hperm htable _ (Strip.mem_patchesFrom_of_getElem? hwidth hchunk)
  have hfits := hroom.target_fits target (List.mem_of_getElem? htarget)
  have hsigned := Image.signedAt_of_stands (by decide) hfits hstands
  -- The table does not start in front of the image, so its offset is its position.
  have hplace : ((plan.tableStrip.start + 4 * index : Nat) : Int) =
      plan.header.tableStart + 4 * index := by
    have hstart : plan.tableStrip.start = plan.header.tableStart.toNat := rfl
    have hnonneg : 0 ≤ plan.header.tableStart := hroom.table_nonneg
    omega
  rw [hplace] at hsigned
  exact SwitchHeader.readTarget_eq_ok_iff.2
    ⟨(himage.patchAll patches).lt_limit hsigned.2.1, hsigned⟩

/-- The body at a target calls the slot that the plan says. -/
theorem slot (himage : filler.Addressable) {target : Int} (htarget : target ∈ plan.bodies) :
    CaseBody.slot (filler.patchAll patches) target = (plan.body target).slot := by
  rcases mem_bodies_iff.1 htarget with ⟨hmem, hother⟩
  have hbody : plan.bodyStrip target ∈ plan.strips layout start :=
    List.mem_append_right _ (List.mem_cons_of_mem _ (List.mem_map_of_mem htarget))
  have hstart := hroom.target_nonneg target hmem hother
  rw [CaseBody.slot_of_operand (himage.patchAll patches) hstart
    (CaseBody.operand_of_stands hstart (hroom.stands hperm hbody)), CaseBody.Shape.slot_eq]

/-- The walk finds at an index the case that the plan puts there. -/
theorem case? (himage : filler.Addressable) {index : Nat} {target : Int}
    (htarget : plan.targets[index]? = some target) :
    plan.header.case? (filler.patchAll patches) index = plan.case? index target := by
  have hread := hroom.readTarget hperm himage htarget
  unfold SwitchHeader.case? SwitchPlan.case?
  rw [hread]
  change (if target = plan.defaultCase then none else _) = _
  by_cases hdefault : target = plan.defaultCase
  · rw [if_pos hdefault, if_pos hdefault]
  · have hbody : target ∈ plan.bodies :=
      mem_bodies_iff.2 ⟨List.mem_of_getElem? htarget, hdefault⟩
    rw [if_neg hdefault, if_neg hdefault, SwitchHeader.caseAt, hroom.slot hperm himage hbody]
    rfl

/-- The walk over the table keeps the cases of the plan. -/
theorem result (himage : filler.Addressable) :
    (Walk.ofHeader plan.header (filler.patchAll patches)).result = .ok plan.cases := by
  have hnonempty := plan.nonempty
  have hcount : 0 ≤ plan.header.count := by
    change 0 ≤ (plan.targets.length : Int) - 1
    omega
  have hlength : plan.header.count.toNat + 1 = plan.targets.length := by
    change ((plan.targets.length : Int) - 1).toNat + 1 = _
    omega
  have hindices : List.range plan.targets.length = plan.targets.zipIdx.map Prod.snd := by
    rw [List.zipIdx_map_snd, List.range_eq_range']
  rw [Walk.result_of_readable hcount, hlength, hindices, List.filterMap_map]
  · refine congrArg Except.ok (List.filterMap_congr fun entry hentry => ?_)
    exact hroom.case? hperm himage (List.mem_zipIdx_iff_getElem?.1 hentry)
  · intro i hi
    have hlt : i < plan.targets.length := by omega
    exact ⟨_, hroom.readTarget hperm himage (List.getElem?_eq_getElem hlt)⟩

end Room

/-- Decoding undoes writing a switch: whatever stood in the image before, and in whatever order the
switch is written, what is decoded are the cases of the plan in the order of its table, each entry
that leads past the default case with its opcode, its target and the slot of the body there. The
strict policy decodes the same unless the layout expects another highest index. -/
theorem decode_patchAll {filler : Image} (himage : filler.Addressable)
    (hroom : plan.Room layout start filler.size) {patches : List Patch}
    (hperm : patches.Perm (plan.patches layout start)) :
    layout.decode .lenient (filler.patchAll patches) start = .ok plan.cases ∧
    ((∀ expected, layout.expectedCount = some expected → expected = plan.targets.length - 1) →
      ∀ policy, layout.decode policy (filler.patchAll patches) start = .ok plan.cases) := by
  have hread : layout.readHeader (filler.patchAll patches) start = .ok plan.header := by
    have hdescribes := hroom.describes hperm
    exact Layout.readHeader_eq_ok_iff.2
      ⟨hdescribes.fieldsAddressable (himage.patchAll patches), hdescribes⟩
  have hresult := hroom.result hperm himage
  constructor
  · rw [Layout.decode_of_readHeader hread Layout.checkCount_lenient, hresult]
  · intro hexpected policy
    have hsame : ∀ expected found,
        ¬layout.CountDiffers (filler.patchAll patches) start expected found := by
      intro expected found hdiffers
      rcases hdiffers with ⟨hexpects, ⟨h, hfinds, rfl⟩, hne⟩
      rw [hread] at hfinds
      cases hfinds
      exact hne (hexpected expected hexpects)
    rw [Layout.decode_of_readHeader hread (Layout.checkCount_of_not_differs hread hsame), hresult]

/-- A switch with an image base in front of the image. Of its five entries two lead to the default
case and two to one body; the bodies have different shapes. -/
def compact : SwitchPlan where
  bias := -2
  defaultCase := 60
  imageBase := -16
  tableData := 40
  targets := [35, 60, 40, 35, 60]
  body := fun target => if target = 35 then .byte 24 else .word (-8)
  nonempty := by decide
  bounded := by decide

/-- The switch is written, last patch first, over an image of other bytes. -/
theorem decode_patchAll_compact :
    Layout.tight.decode .strict
        ((Image.ofList (List.replicate 56 0xCC)).patchAll
          (compact.patches Layout.tight 2).reverse) 2 =
      .ok [⟨0, 2, 35, some 1⟩, ⟨2, 4, 40, some (-3)⟩, ⟨3, 5, 35, some 1⟩] := by
  have himage : (Image.ofList (List.replicate 56 0xCC)).Addressable := by decide
  have hroom : compact.Room Layout.tight 2 (Image.ofList (List.replicate 56 0xCC)).size := by
    constructor
    · decide
    · decide
    · decide
    · decide
    · exact fitsWidth_four.2 (by decide)
    · exact fitsWidth_four.2 (by decide)
    · simp only [fitsWidth_four]
      decide
  rcases decode_patchAll himage hroom (List.reverse_perm _) with ⟨-, hstrict⟩
  exact hstrict (by simp [Layout.tight]) .strict

end SwitchPlan

end OpcodeAtlas
