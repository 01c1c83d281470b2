import OpcodeAtlas.Dispatch.CaseBody
import OpcodeAtlas.Proofs.Dispatch.Description

/-!
# OpcodeAtlas.Proofs.Dispatch.Call — which handler the body of a case calls

The body of a case calls a slot of the vtable in one of two shapes, told apart by the byte at
distance 9: the operand behind it is one unsigned byte or a signed number of four bytes, and it is
eight times the slot, the two reserved entries counted (`CaseBody.Calls`).

* `slotOfVtableOffset_eq_some_iff` — a vtable offset and its slot;
* `vtableOffset_eq_ok_iff` — the offset that a body calls, read in either shape;
* `slot_eq_some_iff` — classification tells the slot exactly when the body starts in the image and
  calls it.
-/

namespace OpcodeAtlas

theorem slotOfVtableOffset_eq_some_iff {offset slot : Int} :
    slotOfVtableOffset offset = some slot ↔ offset = 8 * (slot + 2) := by
  unfold slotOfVtableOffset vtableEntryWidth reservedSlots
  split <;> simp <;> omega

namespace CaseBody

variable {image : Image}

/-- The body at a position has one of the two shapes that call the slot. -/
def Calls (image : Image) (target slot : Int) : Prop :=
  image.ByteAt (target + 9) 0x60 ∧ image.ByteAt (target + 10) (8 * (slot + 2)) ∨
    image.ByteAt (target + 9) 0xA0 ∧ image.SignedAt 4 (target + 10) (8 * (slot + 2))

/-- A byte that stands behind the start of a body is read there, saturation or not. -/
theorem readU8_behind_eq_ok_iff (himage : image.Addressable) {body distance n : Nat} :
    image.readU8 (Offset.saturatingAdd body distance) = .ok n ↔
      image.ByteAt ((body : Int) + distance) n := by
  rw [Image.readU8_eq_ok_iff,
    Offset.saturating_window_iff Nat.one_pos fun o : Nat => image.ByteAt o n,
    ← Image.readU8_eq_ok_iff]
  exact ⟨fun h => (Image.readU8_eq_ok_iff.1 h).2, fun h => himage.readU8_eq_ok h⟩

theorem readI32_behind_eq_ok_iff (himage : image.Addressable) {body distance : Nat} {n : Int} :
    image.readI32 (Offset.saturatingAdd body distance) = .ok n ↔
      image.SignedAt 4 ((body : Int) + distance) n := by
  have hfour : 0 < 4 := by decide
  rw [Image.readI32_eq_ok_iff,
    Offset.saturating_window_iff hfour fun o : Nat => image.SignedAt 4 o n,
    ← Image.readI32_eq_ok_iff]
  exact ⟨fun h => (Image.readI32_eq_ok_iff.1 h).2, fun h => himage.readI32_eq_ok h⟩

theorem vtableOffset_eq_ok_iff (himage : image.Addressable) {body : Nat} {offset : Int} :
    vtableOffset image body = .ok offset ↔
      image.ByteAt (body + 9) 0x60 ∧ image.ByteAt (body + 10) offset ∨
        image.ByteAt (body + 9) 0xA0 ∧ image.SignedAt 4 (body + 10) offset := by
  have hmodRM : ∀ n : Nat, image.readU8 (Offset.saturatingAdd body modRMOffset) = .ok n ↔
      image.ByteAt ((body : Int) + 9) n := fun n => readU8_behind_eq_ok_iff himage
  have hbyte : ∀ n : Nat, image.readU8 (Offset.saturatingAdd body operandOffset) = .ok n ↔
      image.ByteAt ((body : Int) + 10) n := fun n => readU8_behind_eq_ok_iff himage
  have hword : image.readI32 (Offset.saturatingAdd body operandOffset) = .ok offset ↔
      image.SignedAt 4 ((body : Int) + 10) offset := readI32_behind_eq_ok_iff himage
  unfold vtableOffset
  rw [Outcome.bind_eq_ok]
  simp only [Outcome.mapError_eq_ok, hmodRM]
  constructor
  · intro h
    rcases h with ⟨modRM, hstands, hoperand⟩
    split at hoperand
    · rename_i hshape
      subst hshape
      rw [Outcome.mapError_eq_ok, Outcome.map_eq_ok] at hoperand
      rcases hoperand with ⟨n, hread, rfl⟩
      exact .inl ⟨hstands, (hbyte n).1 hread⟩
    · split at hoperand
      · rename_i hshape
        subst hshape
        rw [Outcome.mapError_eq_ok, hword] at hoperand
        exact .inr ⟨hstands, hoperand⟩
      · cases hoperand
  · intro h
    rcases h with ⟨hstands, hoperand⟩ | ⟨hstands, hoperand⟩
    · -- An operand of one byte is no negative number.
      have hbyteAt := hoperand
      rcases hbyteAt with ⟨-, b, -, hb⟩
      subst hb
      refine ⟨byteOperand, hstands, ?_⟩
      rw [if_pos rfl, (hbyte b.toNat).2 hoperand]
      rfl
    · refine ⟨wordOperand, hstands, ?_⟩
      rw [if_neg (by decide), if_pos rfl, hword.2 hoperand]
      rfl

theorem classify_eq_ok_iff (himage : image.Addressable) {target slot : Int} :
    classify image target = .ok slot ↔ 0 ≤ target ∧ Calls image target slot := by
  unfold classify
  simp only [Outcome.bind_eq_ok, Outcome.mapError_eq_ok]
  constructor
  · intro h
    rcases h with ⟨body, hbody, offset, hoffset, hslot⟩
    rcases Image.offsetOf_eq_ok_iff.1 hbody with ⟨rfl, -⟩
    refine ⟨Int.natCast_nonneg body, ?_⟩
    split at hslot
    · rename_i found hfound
      cases hslot
      rw [slotOfVtableOffset_eq_some_iff] at hfound
      subst hfound
      exact (vtableOffset_eq_ok_iff himage).1 hoffset
    · cases hslot
  · intro h
    rcases h with ⟨hstart, hcalls⟩
    rcases Int.eq_ofNat_of_zero_le hstart with ⟨body, rfl⟩
    -- The byte at distance 9 lies in the image, so the body starts in it.
    have hinside : body ≤ image.size := by
      have hbyte : ∃ n, image.ByteAt ((body : Int) + 9) n := by
        rcases hcalls with ⟨h, -⟩ | ⟨h, -⟩ <;> exact ⟨_, h⟩
      rcases hbyte with ⟨-, -, b, hb, -⟩
      have hlt := Image.exists_byte?_iff.1 ⟨b, hb⟩
      omega
    refine ⟨body, Image.offsetOf_eq_ok_iff.2 ⟨rfl, hinside⟩, _,
      (vtableOffset_eq_ok_iff himage).2 hcalls, ?_⟩
    rw [slotOfVtableOffset_eq_some_iff.2 rfl]
    rfl

/-- Classification tells a slot exactly when the body starts at a position of the image and has a
shape that calls it. -/
theorem slot_eq_some_iff (himage : image.Addressable) {target slot : Int} :
    CaseBody.slot image target = some slot ↔ 0 ≤ target ∧ Calls image target slot := by
  rw [← classify_eq_ok_iff himage, CaseBody.slot]
  cases classify image target <;> simp [Except.toOption]

end CaseBody

end OpcodeAtlas
