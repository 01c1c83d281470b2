import Mathlib.Algebra.Group.Int.Defs
import Mathlib.Algebra.Group.Nat.Defs
import OpcodeAtlas.Image.Displacement
import OpcodeAtlas.Proofs.Outcome

/-!
# OpcodeAtlas.Proofs.Image.Window — what stands at a position

A number stands at a position when all its bytes lie in the image and spell it (`ByteAt`,
`SignedAt`). These relations speak of exact sums; the reads add offsets of 64 bits. The two agree:

* `readBytes_eq_ok_iff`, `readBytes_eq_error_iff` — a window is read when its exact end is an
  offset that lies in the image;
* `readU8_eq_ok_iff`, `readI8_eq_ok_iff`, `readI32_eq_ok_iff`, `readI32At_eq_ok_iff`,
  `resolve_eq_ok_iff` — what a read gives back is what stands there;
* `readI32At_negative`, `readI32At_past_end`, `readI32At_truncated` — the three ways in which a
  number of four bytes is missing at a position.

The length of an image is itself an offset (`Addressable`), so that in the end only the position of
a window decides.
-/

namespace OpcodeAtlas.Image

variable {image : Image}

/-- The length of the image is an offset of 64 bits, as the length of every loaded file is. -/
def Addressable (image : Image) : Prop := image.size < Offset.limit

instance (image : Image) : Decidable image.Addressable := Nat.decLt image.size Offset.limit

/-- An image of less than `2 ^ 62` bytes is addressable. -/
theorem addressable_of_size_lt {image : Image} (h : image.size < 2 ^ 62) : image.Addressable := by
  unfold Addressable Offset.limit
  omega

/-- The byte at a position lies in the image and is the number `n`, from 0 to 255. -/
def ByteAt (image : Image) (position n : Int) : Prop :=
  0 ≤ position ∧ ∃ b, image.byte? position.toNat = some b ∧ (b.toNat : Int) = n

/-- The `width` bytes at a position lie in the image and spell the signed number `n`, low byte
first. -/
def SignedAt (image : Image) (width : Nat) (position n : Int) : Prop :=
  0 ≤ position ∧ position + width ≤ image.size ∧
    LittleEndian.signed (image.slice position.toNat (position.toNat + width)) = n

theorem ByteAt.unique {position n n' : Int} (h : image.ByteAt position n)
    (h' : image.ByteAt position n') : n = n' := by
  rcases h with ⟨-, b, hb, rfl⟩
  rcases h' with ⟨-, b', hb', rfl⟩
  rw [hb] at hb'
  cases hb'
  rfl

theorem SignedAt.unique {width : Nat} {position n n' : Int} (h : image.SignedAt width position n)
    (h' : image.SignedAt width position n') : n = n' :=
  h.2.2.symm.trans h'.2.2

/-! ## Bytes -/

theorem exists_byte?_iff {offset : Nat} :
    (∃ b, image.byte? offset = some b) ↔ offset < image.size := by
  constructor
  · intro h
    rcases h with ⟨b, hb⟩
    exact (Array.getElem?_eq_some_iff.1 hb).1
  · intro h
    exact ⟨_, Array.getElem?_eq_getElem h⟩

/-- A byte stands at every position of the image. -/
theorem exists_byteAt_iff {position : Int} (hstart : 0 ≤ position) :
    (∃ n, image.ByteAt position n) ↔ position < image.size := by
  constructor
  · intro h
    rcases h with ⟨_, -, b, hb, -⟩
    have hlt := exists_byte?_iff.1 ⟨b, hb⟩
    omega
  · intro h
    rcases exists_byte?_iff.2 (show position.toNat < image.size by omega) with ⟨b, hb⟩
    exact ⟨b.toNat, hstart, b, hb, rfl⟩

/-- A signed number stands in every window of the image. -/
theorem exists_signedAt_iff {width : Nat} {position : Int} (hstart : 0 ≤ position) :
    (∃ n, image.SignedAt width position n) ↔ position + width ≤ image.size := by
  constructor
  · intro h
    rcases h with ⟨n, hn⟩
    exact hn.2.1
  · intro h
    exact ⟨_, hstart, h, rfl⟩

theorem length_slice {start stop : Nat} (h : stop ≤ image.size) :
    (image.slice start stop).length = stop - start := by
  have hstop : stop ≤ image.bytes.size := h
  simp only [slice, Array.length_toList, Array.size_extract]
  omega

/-- The bytes of a slice are bytes of the image, as far as it reaches. -/
theorem getElem?_slice (image : Image) (start stop i : Nat) :
    (image.slice start stop)[i]? = if start + i < stop then image.byte? (start + i) else none := by
  simp only [slice, byte?, Array.getElem?_toList, Array.getElem?_extract]
  split
  · rw [if_pos (by omega)]
  · split
    · rw [Array.getElem?_eq_none_iff.2 (by omega)]
    · rfl

theorem slice_one {offset : Nat} {b : UInt8} (h : image.byte? offset = some b) :
    image.slice offset (offset + 1) = [b] := by
  apply List.ext_getElem?
  intro i
  rw [getElem?_slice]
  cases i with
  | zero => simp [h]
  | succ i => simp

/-! ## Windows at an offset -/

theorem readBytes_eq (image : Image) (offset length : Nat) :
    image.readBytes offset length =
      if offset + length < Offset.limit ∧ offset + length ≤ image.size then
        .ok (image.slice offset (offset + length))
      else .error (.outOfRange offset length image.size) := by
  unfold readBytes Offset.checkedAdd
  by_cases hlimit : offset + length < Offset.limit
  · by_cases hsize : offset + length ≤ image.size <;> simp [hlimit, hsize, Option.filter]
  · simp [hlimit]

theorem readBytes_eq_ok_iff {offset length : Nat} {bytes : List UInt8} :
    image.readBytes offset length = .ok bytes ↔
      offset + length < Offset.limit ∧ offset + length ≤ image.size ∧
        image.slice offset (offset + length) = bytes := by
  rw [readBytes_eq]
  split
  · rename_i hin
    simp [hin.1, hin.2]
  · rename_i hout
    simp only [reduceCtorEq, false_iff]
    exact fun h => hout ⟨h.1, h.2.1⟩

theorem readBytes_eq_error_iff {offset length : Nat} {e : ReadError} :
    image.readBytes offset length = .error e ↔
      ¬(offset + length < Offset.limit ∧ offset + length ≤ image.size) ∧
        e = .outOfRange offset length image.size := by
  rw [readBytes_eq]
  split
  · rename_i hin
    simp [hin.1, hin.2]
  · rename_i hout
    simp only [Except.error.injEq, hout, not_false_eq_true, true_and]
    exact eq_comm

/-- A signed number is read at an offset when it stands there and its end is an offset. -/
theorem readSigned_eq_ok_iff {offset width : Nat} {n : Int} :
    (image.readBytes offset width).map LittleEndian.signed = .ok n ↔
      offset + width < Offset.limit ∧ image.SignedAt width offset n := by
  rw [Outcome.map_eq_ok]
  constructor
  · intro h
    rcases h with ⟨bytes, hread, rfl⟩
    rcases readBytes_eq_ok_iff.1 hread with ⟨hlimit, hsize, rfl⟩
    refine ⟨hlimit, Int.natCast_nonneg _, by omega, ?_⟩
    rw [Int.toNat_natCast]
  · intro h
    rcases h with ⟨hlimit, -, hsize, hn⟩
    rw [Int.toNat_natCast] at hn
    exact ⟨_, readBytes_eq_ok_iff.2 ⟨hlimit, by omega, rfl⟩, hn⟩

theorem readI8_eq_ok_iff {offset : Nat} {n : Int} :
    image.readI8 offset = .ok n ↔ offset + 1 < Offset.limit ∧ image.SignedAt 1 offset n :=
  readSigned_eq_ok_iff

theorem readI32_eq_ok_iff {offset : Nat} {n : Int} :
    image.readI32 offset = .ok n ↔ offset + 4 < Offset.limit ∧ image.SignedAt 4 offset n :=
  readSigned_eq_ok_iff

theorem readU8_eq_ok_iff {offset n : Nat} :
    image.readU8 offset = .ok n ↔ offset + 1 < Offset.limit ∧ image.ByteAt offset n := by
  rw [readU8, Outcome.map_eq_ok]
  constructor
  · intro h
    rcases h with ⟨bytes, hread, rfl⟩
    rcases readBytes_eq_ok_iff.1 hread with ⟨hlimit, hsize, rfl⟩
    rcases exists_byte?_iff.2 (show offset < image.size by omega) with ⟨b, hb⟩
    refine ⟨hlimit, Int.natCast_nonneg _, b, by rwa [Int.toNat_natCast], ?_⟩
    rw [slice_one hb]
    simp [LittleEndian.unsigned]
  · intro h
    rcases h with ⟨hlimit, -, b, hb, hn⟩
    rw [Int.toNat_natCast] at hb
    have hsize : offset < image.size := exists_byte?_iff.1 ⟨b, hb⟩
    refine ⟨[b], readBytes_eq_ok_iff.2 ⟨hlimit, by omega, slice_one hb⟩, ?_⟩
    simp only [LittleEndian.unsigned]
    omega

/-! ## Signed positions -/

theorem offsetOf_eq_ok_iff {position : Int} {offset : Nat} :
    image.offsetOf position = .ok offset ↔ position = offset ∧ offset ≤ image.size := by
  unfold offsetOf
  split
  · simp only [reduceCtorEq, false_iff]
    omega
  · split
    · simp only [reduceCtorEq, false_iff]
      omega
    · simp only [Except.ok.injEq]
      omega

theorem readI32At_eq_ok_iff {position n : Int} :
    image.readI32At position = .ok n ↔
      position + 4 < Offset.limit ∧ image.SignedAt 4 position n := by
  rw [readI32At, Outcome.bind_eq_ok]
  constructor
  · intro h
    rcases h with ⟨offset, hoffset, hread⟩
    rcases offsetOf_eq_ok_iff.1 hoffset with ⟨rfl, -⟩
    rcases readI32_eq_ok_iff.1 hread with ⟨hlimit, hn⟩
    exact ⟨by omega, hn⟩
  · intro h
    rcases h with ⟨hlimit, hn⟩
    rcases Int.eq_ofNat_of_zero_le hn.1 with ⟨offset, rfl⟩
    have hsize := hn.2.1
    exact ⟨offset, offsetOf_eq_ok_iff.2 ⟨rfl, by omega⟩, readI32_eq_ok_iff.2 ⟨by omega, hn⟩⟩

/-- In front of the image there is nothing to read. -/
theorem readI32At_negative {position : Int} (h : position < 0) :
    image.readI32At position = .error (.negativePosition position) := by
  have hoffset : image.offsetOf position = .error (.negativePosition position) := if_pos h
  rw [readI32At, hoffset, Outcome.error_bind]

/-- Behind the end of the image there is not even an empty window. -/
theorem readI32At_past_end {position : Int} (h : (image.size : Int) < position) :
    image.readI32At position = .error (.outOfRange position.toNat 0 image.size) := by
  have hoffset : image.offsetOf position = .error (.outOfRange position.toNat 0 image.size) := by
    rw [offsetOf, if_neg (by omega), if_pos (by omega)]
  rw [readI32At, hoffset, Outcome.error_bind]

/-- At a position of the image with fewer than four bytes behind it the window is too long. -/
theorem readI32At_truncated {position : Int} (hstart : 0 ≤ position)
    (hinside : position ≤ image.size) (h : (image.size : Int) < position + 4) :
    image.readI32At position = .error (.outOfRange position.toNat 4 image.size) := by
  have hoffset : image.offsetOf position = .ok position.toNat :=
    offsetOf_eq_ok_iff.2 ⟨by omega, by omega⟩
  have hread : image.readBytes position.toNat 4 =
      .error (.outOfRange position.toNat 4 image.size) :=
    readBytes_eq_error_iff.2 ⟨by omega, rfl⟩
  rw [readI32At, hoffset, Outcome.ok_bind, readI32, hread]
  rfl

/-! ## References -/

/-- A reference leads to the position behind its own four bytes, moved by what stands there. -/
theorem resolve_eq_ok_iff {offset : Nat} {target : Int} :
    image.resolve offset = .ok target ↔
      offset + 4 < Offset.limit ∧ image.SignedAt 4 offset (target - offset - 4) := by
  rw [resolve, span, displacement, Outcome.map_eq_ok]
  constructor
  · intro h
    rcases h with ⟨span, hspan, rfl⟩
    rcases Outcome.map_eq_ok.1 hspan with ⟨n, hread, rfl⟩
    rcases readI32_eq_ok_iff.1 hread with ⟨hlimit, hn⟩
    -- The distance counts from the end of the four bytes that hold it.
    refine ⟨hlimit, ?_⟩
    rwa [show (offset : Int) + (displacementWidth + n) - offset - 4 = n by
      unfold displacementWidth; omega]
  · intro h
    rcases h with ⟨hlimit, hn⟩
    have hspan : image.span offset = .ok (target - offset) := by
      refine Outcome.map_eq_ok.2 ⟨_, readI32_eq_ok_iff.2 ⟨hlimit, hn⟩, ?_⟩
      unfold displacementWidth
      omega
    exact ⟨target - offset, hspan, by omega⟩

/-! ## Images whose length is an offset -/

section Addressable

variable (himage : image.Addressable)
include himage

/-- Whatever ends inside an addressable image ends at an offset. -/
theorem Addressable.lt_limit {stop : Int} (h : stop ≤ image.size) : stop < Offset.limit := by
  unfold Addressable at himage
  omega

theorem Addressable.readI32At_eq_ok {position n : Int} (h : image.SignedAt 4 position n) :
    image.readI32At position = .ok n :=
  readI32At_eq_ok_iff.2 ⟨himage.lt_limit h.2.1, h⟩

theorem Addressable.readI32_eq_ok {offset : Nat} {n : Int} (h : image.SignedAt 4 offset n) :
    image.readI32 offset = .ok n := by
  have hlimit := himage.lt_limit h.2.1
  exact readI32_eq_ok_iff.2 ⟨by omega, h⟩

theorem Addressable.readU8_eq_ok {offset n : Nat} (h : image.ByteAt offset n) :
    image.readU8 offset = .ok n := by
  have hbyte := h
  rcases hbyte with ⟨-, b, hb, -⟩
  have hsize : offset < image.size := exists_byte?_iff.1 ⟨b, by simpa using hb⟩
  have hlimit : (offset + 1 : Int) < Offset.limit := himage.lt_limit (by omega)
  exact readU8_eq_ok_iff.2 ⟨by omega, h⟩

end Addressable

end OpcodeAtlas.Image
