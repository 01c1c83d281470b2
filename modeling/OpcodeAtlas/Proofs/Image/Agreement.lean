import Mathlib.Data.Set.Defs
import OpcodeAtlas.Proofs.Image.Window

/-!
# OpcodeAtlas.Proofs.Image.Agreement — images that agree somewhere

Two images of one length may hold the same bytes at some positions and differ at others (`AgreeOn`).
What a read gives back, value or fault, depends on the length of the image and on the bytes of its
own window, so two images that agree there are read alike:

* `AgreeOn.slice`, `AgreeOn.readBytes` — the bytes of a window;
* `AgreeOn.readBytes_saturating` — a window at a sum that may exceed 64 bits;
* `AgreeOn.readI32At` — a number at a signed position.

A window may reach out of the image: what does not lie in either image is agreed on.
-/

namespace OpcodeAtlas.Image

variable {image image' : Image}

/-- The positions from `first` on, as many as `length` tells. -/
def extent (first length : Int) : Set Int :=
  {position | first ≤ position ∧ position < first + length}

@[simp]
theorem mem_extent {first length position : Int} :
    position ∈ extent first length ↔ first ≤ position ∧ position < first + length := Iff.rfl

/-- The images have one length and hold the same bytes at these positions. -/
structure AgreeOn (image image' : Image) (positions : Set Int) : Prop where
  size : image.size = image'.size
  byte : ∀ offset : Nat, (offset : Int) ∈ positions → image.byte? offset = image'.byte? offset

theorem AgreeOn.mono {positions fewer : Set Int} (h : AgreeOn image image' positions)
    (hsub : fewer ⊆ positions) : AgreeOn image image' fewer :=
  ⟨h.size, fun offset hoffset => h.byte offset (hsub hoffset)⟩

/-! ## Reads at an offset -/

theorem AgreeOn.slice {start stop : Nat}
    (h : AgreeOn image image' (extent start (stop - start))) :
    image.slice start stop = image'.slice start stop := by
  apply List.ext_getElem?
  intro i
  rw [getElem?_slice, getElem?_slice]
  by_cases hi : start + i < stop
  · rw [if_pos hi, if_pos hi]
    exact h.byte (start + i) ⟨by omega, by omega⟩
  · rw [if_neg hi, if_neg hi]

theorem AgreeOn.readBytes {offset length : Nat}
    (h : AgreeOn image image' (extent offset length)) :
    image.readBytes offset length = image'.readBytes offset length := by
  have hslice : image.slice offset (offset + length) = image'.slice offset (offset + length) :=
    AgreeOn.slice (h.mono fun position hposition => by rw [mem_extent] at *; omega)
  rw [readBytes_eq, readBytes_eq, hslice, h.size]

/-- Where the exact sum exceeds 64 bits both images are read at the largest offset, in vain. -/
theorem AgreeOn.readBytes_saturating {a b width : Nat} (hwidth : 0 < width)
    (h : AgreeOn image image' (extent (a + b : Nat) width)) :
    image.readBytes (Offset.saturatingAdd a b) width =
      image'.readBytes (Offset.saturatingAdd a b) width := by
  by_cases hsum : a + b < Offset.limit
  · rw [Offset.saturatingAdd, if_pos hsum]
    exact h.readBytes
  · have hend : ¬Offset.limit - 1 + width < Offset.limit := by
      unfold Offset.limit
      omega
    rw [Offset.saturatingAdd, if_neg hsum, readBytes_eq, readBytes_eq, if_neg (by tauto),
      if_neg (by tauto), h.size]

/-! ## Reads at a signed position -/

/-- Whether a position lies in an image depends on the length alone. -/
theorem AgreeOn.offsetOf {positions : Set Int} (h : AgreeOn image image' positions)
    (position : Int) : image.offsetOf position = image'.offsetOf position := by
  rw [Image.offsetOf, Image.offsetOf, h.size]

theorem AgreeOn.readI32At {position : Int}
    (h : AgreeOn image image' (extent position 4)) :
    image.readI32At position = image'.readI32At position := by
  rw [Image.readI32At, Image.readI32At, h.offsetOf position]
  cases hoffset : image'.offsetOf position with
  | error e => rfl
  | ok offset =>
    obtain ⟨rfl, -⟩ := offsetOf_eq_ok_iff.1 hoffset
    exact congrArg (Except.map LittleEndian.signed) (AgreeOn.readBytes h)

end OpcodeAtlas.Image
