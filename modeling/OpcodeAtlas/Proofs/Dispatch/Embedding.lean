import OpcodeAtlas.Proofs.Dispatch.Call
import OpcodeAtlas.Proofs.Dispatch.Cases
import OpcodeAtlas.Proofs.Image.Embedding

/-!
# OpcodeAtlas.Proofs.Dispatch.Embedding — a switch does not depend on where it stands

All references of a switch are relative, so that a switch can be decoded as well in a larger image
of which its own image is a part:

* `Describes.embed` — the header is the same but for its two positions, which move along;
* `case?_embed` — a table entry makes the same case, moved (`Case.Moved`);
* `decode_embed` — so does every entry of the table, and decoding gives the same cases, moved.

Only the slot of a body that leaves its image may become known in a larger one.
-/

namespace OpcodeAtlas

variable {image : Image} {front back : List UInt8}

/-- The case is the other one in an image that is moved by a distance. A slot that is known stays,
and one that is unknown stays so if all bytes that could tell it lie in the image. -/
structure Case.Moved (image : Image) (distance : Nat) (c c' : Case) : Prop where
  index : c'.index = c.index
  opcode : c'.opcode = c.opcode
  target : c'.target = c.target + distance
  slot_of_known : ∀ slot, c.slot = some slot → c'.slot = some slot
  slot_of_unknown : c.slot = none → 0 ≤ c.target → c.target + 13 < image.size → c'.slot = none

/-! ## Bodies -/

namespace CaseBody

variable {target slot : Int}

theorem Calls.embed (h : Calls image target slot) :
    Calls (image.embed front back) (target + front.length) slot := by
  unfold Calls
  rw [show target + front.length + 9 = target + 9 + front.length by omega,
    show target + front.length + 10 = target + 10 + front.length by omega]
  rcases h with ⟨hshape, hoperand⟩ | ⟨hshape, hoperand⟩
  · exact .inl ⟨hshape.embed, hoperand.embed⟩
  · exact .inr ⟨hshape.embed, hoperand.embed⟩

/-- A body whose bytes all lie in the image calls nothing else in the larger one. -/
theorem Calls.of_embed (hstart : 0 ≤ target) (hend : target + 13 < image.size)
    (h : Calls (image.embed front back) (target + front.length) slot) :
    Calls image target slot := by
  unfold Calls at h
  rw [show target + front.length + 9 = target + 9 + front.length by omega,
    show target + front.length + 10 = target + 10 + front.length by omega,
    Image.byteAt_embed_iff (by omega) (by omega), Image.byteAt_embed_iff (by omega) (by omega),
    Image.byteAt_embed_iff (by omega) (by omega),
    Image.signedAt_embed_iff (by omega) (by omega)] at h
  exact h

theorem slot_embed_of_known (himage : (image.embed front back).Addressable)
    (h : CaseBody.slot image target = some slot) :
    CaseBody.slot (image.embed front back) (target + front.length) = some slot := by
  rcases (slot_eq_some_iff himage.of_embed).1 h with ⟨hstart, hcalls⟩
  exact (slot_eq_some_iff himage).2 ⟨by omega, hcalls.embed⟩

theorem slot_embed_of_unknown (himage : (image.embed front back).Addressable)
    (h : CaseBody.slot image target = none) (hstart : 0 ≤ target)
    (hend : target + 13 < image.size) :
    CaseBody.slot (image.embed front back) (target + front.length) = none := by
  by_contra hknown
  rcases Option.ne_none_iff_exists'.1 hknown with ⟨slot, hslot⟩
  have hcalls := ((slot_eq_some_iff himage).1 hslot).2.of_embed hstart hend
  rw [(slot_eq_some_iff himage.of_embed).2 ⟨hstart, hcalls⟩] at h
  cases h

end CaseBody

/-! ## Headers -/

/-- The header of a switch that is moved by a distance. -/
def SwitchHeader.move (distance : Nat) (h : SwitchHeader) : SwitchHeader :=
  { h with defaultCase := h.defaultCase + distance, imageBase := h.imageBase + distance }

namespace SwitchHeader

variable (distance : Nat) (h : SwitchHeader)

@[simp]
theorem defaultCase_move : (h.move distance).defaultCase = h.defaultCase + distance := rfl

@[simp]
theorem imageBase_move : (h.move distance).imageBase = h.imageBase + distance := rfl

@[simp]
theorem tableStart_move : (h.move distance).tableStart = h.tableStart + distance := by
  change h.imageBase + distance + h.tableData = h.imageBase + h.tableData + distance
  omega

end SwitchHeader

namespace Layout

variable {layout : Layout} {policy : MismatchPolicy} {start : Nat} {h : SwitchHeader}

theorem Describes.embed (hd : layout.Describes image start h) :
    layout.Describes (image.embed front back) (start + front.length) (h.move front.length) := by
  -- A field stands as far behind the match as before; a reference in it leads as far as before.
  have hplace : ∀ distance : Nat, ((start + front.length + distance : Nat) : Int) =
      (start + distance : Nat) + front.length := by omega
  have hreference : ∀ (target : Int) (distance : Nat),
      target + front.length - ((start + distance : Nat) + front.length) - 4 =
        target - (start + distance : Nat) - 4 := by omega
  constructor
  · rw [hplace]
    exact hd.bias.embed
  · rw [hplace]
    exact hd.count.embed
  · rw [hplace, SwitchHeader.defaultCase_move, hreference]
    exact hd.defaultCase.embed
  · rw [hplace, SwitchHeader.imageBase_move, hreference]
    exact hd.imageBase.embed
  · rw [hplace]
    exact hd.tableData.embed

theorem readHeader_embed (himage : (image.embed front back).Addressable)
    (hread : layout.readHeader image start = .ok h) :
    layout.readHeader (image.embed front back) (start + front.length) =
      .ok (h.move front.length) := by
  have hdescribes : layout.Describes (image.embed front back) (start + front.length)
      (h.move front.length) := (describes_of_readHeader hread).embed
  exact readHeader_eq_ok_iff.2 ⟨hdescribes.fieldsAddressable himage, hdescribes⟩

end Layout

/-! ## Table entries -/

namespace SwitchHeader

variable {h : SwitchHeader} {index : Nat} {target : Int}

theorem readTarget_embed (himage : (image.embed front back).Addressable)
    (hread : h.readTarget image index = .ok target) :
    (h.move front.length).readTarget (image.embed front back) index =
      .ok (target + front.length) := by
  have hstands : (image.embed front back).SignedAt 4 (h.tableStart + 4 * index + front.length)
      (target - h.imageBase) := (readTarget_eq_ok_iff.1 hread).2.embed
  have hrelative : target + front.length - (h.move front.length).imageBase =
      target - h.imageBase := by
    rw [imageBase_move]
    omega
  have hposition : (h.move front.length).tableStart + 4 * index =
      h.tableStart + 4 * index + front.length := by
    rw [tableStart_move]
    omega
  rw [readTarget_eq_ok_iff, hrelative, hposition]
  exact ⟨himage.lt_limit hstands.2.1, hstands⟩

/-- A table entry that can be read makes the same case in the larger image, or none in either. -/
theorem case?_embed (himage : (image.embed front back).Addressable)
    (hreadable : h.Readable image index) :
    Option.Rel (Case.Moved image front.length) (h.case? image index)
      ((h.move front.length).case? (image.embed front back) index) := by
  rcases hreadable with ⟨target, hread⟩
  have hmoved := readTarget_embed himage hread
  unfold case?
  simp only [hread, hmoved]
  by_cases hdefault : target = h.defaultCase
  · have hdefault' : target + front.length = (h.move front.length).defaultCase := by
      rw [defaultCase_move, hdefault]
    rw [if_pos hdefault, if_pos hdefault']
    exact .none
  · have hdefault' : target + front.length ≠ (h.move front.length).defaultCase := by
      rw [defaultCase_move]
      omega
    rw [if_neg hdefault, if_neg hdefault']
    exact .some {
      index := rfl
      opcode := rfl
      target := rfl
      slot_of_known := fun _ hslot => CaseBody.slot_embed_of_known himage hslot
      slot_of_unknown := CaseBody.slot_embed_of_unknown himage }

end SwitchHeader

/-! ## Decoding -/

/-- A walk over a table that can be read throughout makes the same cases in the larger image. -/
theorem Walk.result_embed (himage : (image.embed front back).Addressable) {h : SwitchHeader}
    {cases : List Case} (hwalk : (ofHeader h image).result = .ok cases) :
    ∃ cases', (ofHeader (h.move front.length) (image.embed front back)).result = .ok cases' ∧
      List.Forall₂ (Case.Moved image front.length) cases cases' := by
  rcases lt_or_ge h.count 0 with hnegative | hcount
  · rw [result_of_negative hnegative] at hwalk
    cases hwalk
    exact ⟨[], result_of_negative hnegative, .nil⟩
  · rcases (result_eq_ok_iff hcount).1 hwalk with ⟨hreads, rfl⟩
    have hreads' : ∀ i : Nat, (i : Int) ≤ h.count →
        (h.move front.length).Readable (image.embed front back) i := by
      intro i hi
      rcases hreads i hi with ⟨target, hread⟩
      exact ⟨_, SwitchHeader.readTarget_embed himage hread⟩
    refine ⟨_, result_of_readable hcount hreads', ?_⟩
    -- The two walks filter the same indices, and index by index they keep the same case.
    have hindices : List.Forall₂ (fun i j : Nat => i = j ∧ (i : Int) ≤ h.count)
        (List.range (h.count.toNat + 1)) (List.range (h.count.toNat + 1)) := by
      rw [List.forall₂_same]
      intro i hi
      rw [List.mem_range] at hi
      exact ⟨rfl, by omega⟩
    refine List.rel_filterMap ?_ hindices
    rintro i _ ⟨rfl, hi⟩
    exact SwitchHeader.case?_embed himage (hreads i hi)

namespace Layout

variable {layout : Layout} {policy : MismatchPolicy} {start : Nat}

/-- A switch that can be decoded can be decoded as part of a larger image, with the same cases in
the same order: the targets move along, indices and opcodes stay, and so do all slots that are
known or that the bytes of their body in the image leave unknown. -/
theorem decode_embed (hsize : (image.embed front back).size < 2 ^ 62) {cases : List Case}
    (hdecode : layout.decode policy image start = .ok cases) :
    ∃ cases', layout.decode policy (image.embed front back) (start + front.length) = .ok cases' ∧
      List.Forall₂ (Case.Moved image front.length) cases cases' := by
  have himage : (image.embed front back).Addressable := Image.addressable_of_size_lt hsize
  rcases decode_eq_ok_iff.1 hdecode with ⟨h, hread, hcheck, hwalk⟩
  rcases Walk.result_embed himage hwalk with ⟨cases', hwalk', hmoved⟩
  exact ⟨cases', decode_eq_ok_iff.2 ⟨_, readHeader_embed himage hread, hcheck, hwalk'⟩, hmoved⟩

/-- In front of a switch three bytes, behind it one: the body that its image holds calls what it
called, three bytes further on. -/
theorem decode_embed_tightSwitch :
    ∃ c c', tight.decode .strict ((tightSwitch 2).embed [1, 2, 3] [4]) 3 = .ok [c, c'] ∧
      c.target = 32 ∧ c.slot = some 1 ∧ c'.opcode = 4 ∧ c'.target = 203 := by
  have hsize : ((tightSwitch 2).embed [1, 2, 3] [4]).size < 2 ^ 62 := by decide
  have hdecode : tight.decode .strict (tightSwitch 2) 0 =
      .ok [⟨0, 2, 29, some 1⟩, ⟨2, 4, 200, none⟩] := rfl
  rcases decode_embed hsize hdecode with ⟨_, hdecode', hmoved⟩
  cases hmoved with
  | cons hfirst hmoved =>
    cases hmoved with
    | cons hlast hmoved =>
      cases hmoved
      exact ⟨_, _, hdecode', hfirst.target, hfirst.slot_of_known 1 rfl, hlast.opcode, hlast.target⟩

end Layout

end OpcodeAtlas
