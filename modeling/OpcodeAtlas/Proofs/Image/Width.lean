import OpcodeAtlas.Proofs.Image.Window

/-!
# OpcodeAtlas.Proofs.Image.Width — numbers that a field can hold

A signed number fits a width when two's complement of that many bytes can hold it (`FitsWidth`).

* `SignedAt.fitsWidth` — what stands in a field fits the width of the field;
* `SignedAt.reference_bounds` — how far a reference leads;
* `fits_of_resolve` — what resolving a reference computes fits eight bytes.
-/

namespace OpcodeAtlas

/-- Two's complement of `width` bytes can hold the number. -/
def FitsWidth (width : Nat) (n : Int) : Prop :=
  -2 ^ (8 * width - 1) ≤ n ∧ n < 2 ^ (8 * width - 1)

theorem fitsWidth_one {n : Int} : FitsWidth 1 n ↔ -0x80 ≤ n ∧ n < 0x80 := by
  simp [FitsWidth]

theorem fitsWidth_four {n : Int} : FitsWidth 4 n ↔ -0x8000_0000 ≤ n ∧ n < 0x8000_0000 := by
  simp [FitsWidth]

theorem fitsWidth_eight {n : Int} :
    FitsWidth 8 n ↔ -0x8000_0000_0000_0000 ≤ n ∧ n < 0x8000_0000_0000_0000 := by
  simp [FitsWidth]

/-- The numbers of `width` bytes are even in number: one half of them is negative. -/
theorem LittleEndian.natPow_eq_two_mul {width : Nat} (h : 0 < width) :
    ((Nat.pow 256 width : Nat) : Int) = 2 * 2 ^ (8 * width - 1) := by
  have hexponent : 8 * width = 8 * width - 1 + 1 := by omega
  have hhalf : Nat.pow 256 width = 2 * 2 ^ (8 * width - 1) :=
    calc Nat.pow 256 width = (2 ^ 8) ^ width := rfl
      _ = 2 ^ (8 * width - 1 + 1) := by rw [← Nat.pow_mul, ← hexponent]
      _ = 2 * 2 ^ (8 * width - 1) := Nat.pow_succ'
  rw [hhalf]
  push_cast
  rfl

/-- What some bytes spell fits as many bytes. -/
theorem LittleEndian.fitsWidth_signed {bytes : List UInt8} (h : bytes ≠ []) :
    FitsWidth bytes.length (signed bytes) := by
  have hlength : 0 < bytes.length := List.length_pos_iff.2 h
  have hpositive : 0 < Nat.pow 256 bytes.length := Nat.pow_pos (by decide)
  -- Two's complement reaches from minus one half of the modulus to the other half.
  have hleast := Int.le_bmod (x := unsigned bytes) hpositive
  have hgreatest := Int.bmod_lt (x := unsigned bytes) hpositive
  unfold FitsWidth signed
  rw [natPow_eq_two_mul hlength] at hleast hgreatest
  omega

namespace Image

variable {image : Image}

/-- What stands in a field fits the width of the field. -/
theorem SignedAt.fitsWidth {width : Nat} (hwidth : 0 < width) {position n : Int}
    (h : image.SignedAt width position n) : FitsWidth width n := by
  rcases h with ⟨hstart, hend, rfl⟩
  have hlength : (image.slice position.toNat (position.toNat + width)).length = width := by
    rw [length_slice (by omega)]
    omega
  have hne : image.slice position.toNat (position.toNat + width) ≠ [] := by
    intro hnil
    rw [hnil] at hlength
    simp at hlength
    omega
  have hfits := LittleEndian.fitsWidth_signed hne
  rwa [hlength] at hfits

/-- A single byte is a number from 0 to 255. -/
theorem ByteAt.bounds {position n : Int} (h : image.ByteAt position n) : 0 ≤ n ∧ n < 0x100 := by
  rcases h with ⟨-, b, -, rfl⟩
  have hb : b.toNat < 256 := b.toNat_lt
  omega

/-- A reference leads no further from the byte behind it than four bytes can tell. -/
theorem SignedAt.reference_bounds {offset : Nat} {target : Int}
    (h : image.SignedAt 4 offset (target - offset - 4)) :
    -0x8000_0000 ≤ target ∧ target < image.size + 0x8000_0000 := by
  have hend := h.2.1
  have hfits := fitsWidth_four.1 (h.fitsWidth (by decide))
  omega

/-- What resolving a reference computes fits eight bytes: the offset of the reference as a signed
number, the distance from there, and the target. -/
theorem fits_of_resolve (hsize : image.size < 2 ^ 62) {offset : Nat} {target : Int}
    (h : image.resolve offset = .ok target) :
    FitsWidth 8 offset ∧ (∀ d, image.span offset = .ok d → FitsWidth 8 d) ∧ FitsWidth 8 target := by
  have hstands := (resolve_eq_ok_iff.1 h).2
  have hend := hstands.2.1
  have hbounds := hstands.reference_bounds
  refine ⟨fitsWidth_eight.2 (by omega), ?_, fitsWidth_eight.2 (by omega)⟩
  intro d hspan
  rcases Outcome.map_eq_ok.1 hspan with ⟨n, hread, rfl⟩
  have hfits := fitsWidth_four.1 ((readI32_eq_ok_iff.1 hread).2.fitsWidth (by decide))
  refine fitsWidth_eight.2 ?_
  unfold displacementWidth
  omega

end Image

end OpcodeAtlas
