import OpcodeAtlas.Proofs.Image.Window

/-!
# OpcodeAtlas.Proofs.Image.Embedding — an image inside a larger one

An image may be a part of a larger one, with bytes in front of it and behind it (`embed`). What
stands in the part stands in the whole, as far behind as there are bytes in front:

* `byte?_embed`, `slice_embed` — the bytes and windows of the part;
* `byteAt_embed_iff`, `signedAt_embed_iff` — the numbers in a window of the part are the numbers in
  the window of the whole that covers it;
* `ByteAt.embed`, `SignedAt.embed` — what stands in the part lies in such a window.
-/

namespace OpcodeAtlas.Image

variable {image : Image}

/-- The image with more bytes in front of it and behind it. -/
def embed (front back : List UInt8) (image : Image) : Image :=
  ⟨front.toArray ++ image.bytes ++ back.toArray⟩

variable (front back : List UInt8)

theorem size_embed : (image.embed front back).size = front.length + image.size + back.length := by
  simp [embed, size, Nat.add_assoc]

variable {front back}

/-- A part of an addressable image is addressable. -/
theorem Addressable.of_embed (h : (image.embed front back).Addressable) : image.Addressable := by
  unfold Addressable at h ⊢
  rw [size_embed] at h
  omega

/-! ## Bytes and windows -/

theorem byte?_embed {offset : Nat} (h : offset < image.size) :
    (image.embed front back).byte? (offset + front.length) = image.byte? offset := by
  have hsize : offset < image.bytes.size := h
  unfold byte? embed
  rw [Array.getElem?_append_left (by simp; omega), Array.getElem?_append_right (by simp)]
  simp

theorem slice_embed {start stop : Nat} (h : stop ≤ image.size) :
    (image.embed front back).slice (start + front.length) (stop + front.length) =
      image.slice start stop := by
  apply List.ext_getElem?
  intro i
  rw [getElem?_slice, getElem?_slice, Nat.add_right_comm]
  by_cases hi : start + i < stop
  · rw [if_pos hi, if_pos (by omega), byte?_embed (by omega)]
  · rw [if_neg hi, if_neg (by omega)]

/-! ## Numbers -/

theorem byteAt_embed_iff {position n : Int} (hstart : 0 ≤ position) (hend : position < image.size) :
    (image.embed front back).ByteAt (position + front.length) n ↔ image.ByteAt position n := by
  have hoffset : (position + front.length).toNat = position.toNat + front.length := by omega
  unfold ByteAt
  rw [hoffset, byte?_embed (by omega)]
  constructor
  · exact fun h => ⟨hstart, h.2⟩
  · exact fun h => ⟨by omega, h.2⟩

theorem signedAt_embed_iff {width : Nat} {position n : Int} (hstart : 0 ≤ position)
    (hend : position + width ≤ image.size) :
    (image.embed front back).SignedAt width (position + front.length) n ↔
      image.SignedAt width position n := by
  have hoffset : (position + front.length).toNat = position.toNat + front.length := by omega
  have hstop : position.toNat + front.length + width = position.toNat + width + front.length := by
    omega
  have hsize : (image.embed front back).size = front.length + image.size + back.length :=
    size_embed front back
  unfold SignedAt
  rw [hoffset, hstop, slice_embed (by omega)]
  constructor
  · exact fun h => ⟨hstart, hend, h.2.2⟩
  · exact fun h => ⟨by omega, by omega, h.2.2⟩

theorem ByteAt.embed {position n : Int} (h : image.ByteAt position n) :
    (image.embed front back).ByteAt (position + front.length) n := by
  have hbyte := h
  rcases hbyte with ⟨hstart, b, hb, -⟩
  have hinside := exists_byte?_iff.1 ⟨b, hb⟩
  exact (byteAt_embed_iff hstart (by omega)).2 h

theorem SignedAt.embed {width : Nat} {position n : Int} (h : image.SignedAt width position n) :
    (image.embed front back).SignedAt width (position + front.length) n :=
  (signedAt_embed_iff h.1 h.2.1).2 h

end OpcodeAtlas.Image
