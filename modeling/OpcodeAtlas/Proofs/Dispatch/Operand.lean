import OpcodeAtlas.Proofs.Dispatch.Call
import OpcodeAtlas.Proofs.Dispatch.Cases

/-!
# OpcodeAtlas.Proofs.Dispatch.Operand — the two shapes of a body and no other

The operand of a body is the vtable offset that it calls, in whichever shape it is written
(`CaseBody.Operand`). A body that tells no slot has one of six faults (`CaseBody.Silent`).

* `Operand.unique` — the two shapes exclude each other, so a body has one operand at most;
* `slot_of_operand` — the slot depends on the operand alone, not on its shape;
* `slot_eq_none_iff` — classification tells no slot exactly when the body is silent;
* `slot_shapes` — what classification recognises, and that it tells operands apart.
-/

namespace OpcodeAtlas.CaseBody

variable {image image' : Image} {target target' offset offset' slot : Int}

/-- The body at a position has one of the two shapes, with the vtable offset as its operand. -/
def Operand (image : Image) (target offset : Int) : Prop :=
  image.ByteAt (target + 9) 0x60 ∧ image.ByteAt (target + 10) offset ∨
    image.ByteAt (target + 9) 0xA0 ∧ image.SignedAt 4 (target + 10) offset

/-- Why the body at a position tells no slot. -/
inductive Silent (image : Image) (target : Int) : Prop where
  /-- The body starts in front of the image. -/
  | negative (h : target < 0)
  /-- The image ends in front of the byte that tells the shape. -/
  | pastEnd (h : image.size ≤ target + 9)
  /-- That byte announces neither shape. -/
  | otherByte {b : Int} (hbyte : image.ByteAt (target + 9) b) (hshort : b ≠ 0x60)
    (hlong : b ≠ 0xA0)
  /-- The image ends in front of the operand of one byte. -/
  | shortCut (hbyte : image.ByteAt (target + 9) 0x60) (h : image.size ≤ target + 10)
  /-- The image ends inside the operand of four bytes. -/
  | longCut (hbyte : image.ByteAt (target + 9) 0xA0) (h : image.size ≤ target + 13)
  /-- The operand lies between two entries of the vtable. -/
  | unaligned {offset : Int} (hoperand : Operand image target offset) (h : ¬(8 ∣ offset))

/-- A body that calls a slot has the slot's vtable offset as its operand. -/
theorem calls_iff_operand : Calls image target slot ↔ Operand image target (8 * (slot + 2)) :=
  Iff.rfl

/-- One byte cannot announce both shapes. -/
theorem Operand.unique (h : Operand image target offset) (h' : Operand image target offset') :
    offset = offset' := by
  have hdistinct : ¬(image.ByteAt (target + 9) 0x60 ∧ image.ByteAt (target + 9) 0xA0) := by
    intro hboth
    exact absurd (hboth.1.unique hboth.2) (by decide)
  rcases h with ⟨hshape, hoperand⟩ | ⟨hshape, hoperand⟩
  · rcases h' with ⟨-, hoperand'⟩ | ⟨hshape', -⟩
    · exact hoperand.unique hoperand'
    · exact absurd ⟨hshape, hshape'⟩ hdistinct
  · rcases h' with ⟨hshape', -⟩ | ⟨-, hoperand'⟩
    · exact absurd ⟨hshape', hshape⟩ hdistinct
    · exact hoperand.unique hoperand'

/-- The slot of a body is that of its operand, in either shape. -/
theorem slot_of_operand (himage : image.Addressable) (hstart : 0 ≤ target)
    (h : Operand image target offset) :
    CaseBody.slot image target = slotOfVtableOffset offset := by
  ext slot
  rw [slot_eq_some_iff himage, slotOfVtableOffset_eq_some_iff, calls_iff_operand]
  constructor
  · intro hcalls
    exact h.unique hcalls.2
  · rintro rfl
    exact ⟨hstart, h⟩

/-! ## Bodies that tell no slot -/

/-- A body without operand is silent. -/
theorem silent_of_no_operand (hstart : 0 ≤ target) (h : ∀ offset, ¬Operand image target offset) :
    Silent image target := by
  rcases lt_or_ge (target + 9) image.size with hinside | hpast
  · rcases (Image.exists_byteAt_iff (by omega)).2 hinside with ⟨b, hbyte⟩
    -- The byte at distance 9 decides which operand is missing.
    by_cases hshort : b = 0x60
    · subst hshort
      refine .shortCut hbyte ?_
      by_contra hfits
      rcases (Image.exists_byteAt_iff (by omega)).2 (not_le.1 hfits) with ⟨offset, hoperand⟩
      exact h offset (.inl ⟨hbyte, hoperand⟩)
    · by_cases hlong : b = 0xA0
      · subst hlong
        refine .longCut hbyte ?_
        by_contra hfits
        have hwindow : target + 10 + (4 : Nat) ≤ image.size := by omega
        rcases (Image.exists_signedAt_iff (by omega)).2 hwindow with ⟨offset, hoperand⟩
        exact h offset (.inr ⟨hbyte, hoperand⟩)
      · exact .otherByte hbyte hshort hlong
  · exact .pastEnd hpast

/-- A silent body has no operand that is a multiple of eight, or it starts in front of the image. -/
theorem Silent.not_dvd (hsilent : Silent image target) (hstart : 0 ≤ target)
    (h : Operand image target offset) : ¬(8 ∣ offset) := by
  have hshape : ∃ b, image.ByteAt (target + 9) b ∧ (b = 0x60 ∨ b = 0xA0) := by
    rcases h with ⟨hbyte, -⟩ | ⟨hbyte, -⟩
    · exact ⟨_, hbyte, .inl rfl⟩
    · exact ⟨_, hbyte, .inr rfl⟩
  rcases hshape with ⟨b, hb, hannounced⟩
  have hinside : target + 9 < image.size := (Image.exists_byteAt_iff (by omega)).1 ⟨b, hb⟩
  cases hsilent with
  | negative hnegative => omega
  | pastEnd hpast => omega
  | otherByte hbyte hshort hlong =>
    rw [hb.unique hbyte] at hannounced
    exact absurd hannounced (not_or.2 ⟨hshort, hlong⟩)
  | shortCut hbyte hcut =>
    rcases h with ⟨-, hoperand⟩ | ⟨hother, -⟩
    · have hfits := (Image.exists_byteAt_iff (by omega)).1 ⟨_, hoperand⟩
      omega
    · exact absurd (hbyte.unique hother) (by decide)
  | longCut hbyte hcut =>
    rcases h with ⟨hother, -⟩ | ⟨-, hoperand⟩
    · exact absurd (hbyte.unique hother) (by decide)
    · have hfits := hoperand.2.1
      omega
  | unaligned hoperand hodd => rwa [h.unique hoperand]

theorem slot_eq_none_iff (himage : image.Addressable) :
    CaseBody.slot image target = none ↔ Silent image target := by
  rw [Option.eq_none_iff_forall_not_mem]
  simp only [Option.mem_def, slot_eq_some_iff himage, calls_iff_operand]
  constructor
  · intro h
    rcases lt_or_ge target 0 with hnegative | hstart
    · exact .negative hnegative
    · by_cases hoperand : ∃ offset, Operand image target offset
      · rcases hoperand with ⟨offset, hoperand⟩
        refine .unaligned hoperand fun hdvd => ?_
        rcases hdvd with ⟨entry, rfl⟩
        refine h (entry - 2) ⟨hstart, ?_⟩
        rwa [show entry - 2 + 2 = entry by omega]
      · exact silent_of_no_operand hstart (not_exists.1 hoperand)
  · intro hsilent slot hslot
    exact hsilent.not_dvd hslot.1 hslot.2 ⟨slot + 2, rfl⟩

/-! ## The two shapes -/

/-- Classification recognises a body that starts in the image and is written in one of the two
shapes with eight times the slot as its operand, the two reserved entries counted, and nothing else:
every other body is silent. What it tells does not depend on the shape, so that the same operand
gives the same slot in one byte and in four, and different operands give different slots. -/
theorem slot_shapes (himage : image.Addressable) (target : Int) :
    (∀ slot, CaseBody.slot image target = some slot ↔ 0 ≤ target ∧
      (image.ByteAt (target + 9) 0x60 ∧ image.ByteAt (target + 10) (8 * (slot + 2)) ∨
        image.ByteAt (target + 9) 0xA0 ∧ image.SignedAt 4 (target + 10) (8 * (slot + 2)))) ∧
    (CaseBody.slot image target = none ↔ Silent image target) ∧
    (∀ image' target' offset, image'.Addressable → 0 ≤ target → 0 ≤ target' →
      image.ByteAt (target + 9) 0x60 → image.ByteAt (target + 10) offset →
      image'.ByteAt (target' + 9) 0xA0 → image'.SignedAt 4 (target' + 10) offset →
      CaseBody.slot image target = CaseBody.slot image' target') ∧
    (∀ image' target' offset offset' slot slot', image'.Addressable →
      Operand image target offset → Operand image' target' offset' →
      CaseBody.slot image target = some slot → CaseBody.slot image' target' = some slot' →
      offset ≠ offset' → slot ≠ slot') := by
  refine ⟨fun slot => slot_eq_some_iff himage, slot_eq_none_iff himage, ?_, ?_⟩
  · intro image' target' offset himage' hstart hstart' hshort hbyte hlong hword
    rw [slot_of_operand himage hstart (.inl ⟨hshort, hbyte⟩),
      slot_of_operand himage' hstart' (.inr ⟨hlong, hword⟩)]
  · rintro image' target' offset offset' slot slot' himage' hoperand hoperand' hslot hslot' hne rfl
    -- Both bodies call the slot, and its vtable offset is the operand of either.
    have hcalls := ((slot_eq_some_iff himage).1 hslot).2
    have hcalls' := ((slot_eq_some_iff himage').1 hslot').2
    exact hne ((hoperand.unique hcalls).trans (hoperand'.unique hcalls').symm)

/-- A body that calls the handler at vtable offset 24 by an operand of four bytes. -/
def longBody : Image := .ofList [0, 0, 0, 0, 0, 0, 0, 0, 0, 0xA0, 24, 0, 0, 0]

/-- The body of a switch and one written in the longer shape call the same slot; a target behind
the image is silent. -/
theorem slot_shapes_longBody :
    CaseBody.slot (Layout.tightSwitch 2) 29 = CaseBody.slot longBody 0 ∧
      Silent (Layout.tightSwitch 2) 200 := by
  have himage : (Layout.tightSwitch 2).Addressable := by decide
  have himage' : longBody.Addressable := by decide
  have hword : longBody.readI32 10 = .ok 24 := rfl
  rcases slot_shapes himage 29 with ⟨-, -, hsame, -⟩
  rcases slot_shapes himage 200 with ⟨-, hsilent, -, -⟩
  refine ⟨hsame longBody 0 24 himage' (by decide) (by decide) ⟨by decide, 0x60, rfl, rfl⟩
    ⟨by decide, 24, rfl, rfl⟩ ⟨by decide, 0xA0, rfl, rfl⟩ (Image.readI32_eq_ok_iff.1 hword).2,
    hsilent.1 rfl⟩

end OpcodeAtlas.CaseBody
