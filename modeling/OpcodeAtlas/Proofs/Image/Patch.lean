import OpcodeAtlas.Proofs.Image.Width

/-!
# OpcodeAtlas.Proofs.Image.Patch — bytes written into an image

An image of a program is put together by writing byte strings over whatever was there before. A
`Patch` is one such string with its offset; a `Strip` is a row of strings, each behind the one
before it. Two facts carry every statement about an image that was written so:

* `stands_patch` — a patch that fits the image stands there once it is written;
* `Stands.patch` — what stands somewhere still stands after a patch beside it.

`stands_patchAll` puts them together for a whole run of patches: if they lie beside one another,
each of them stands in the end, in whatever order they were written. `signedAt_of_stands` says what
a reader finds there, since the bytes of a number spell it again (`LittleEndian.signed_bytesOf`).
-/

namespace OpcodeAtlas

/-! ## The bytes of a number -/

namespace LittleEndian

/-- The lowest `width` bytes of a number in two's complement, low byte first. -/
def bytesOf : (width : Nat) → (n : Int) → List UInt8
  | 0, _ => []
  | width + 1, n => UInt8.ofNat (n % 256).toNat :: bytesOf width (n / 256)

@[simp]
theorem length_bytesOf (width : Nat) (n : Int) : (bytesOf width n).length = width := by
  induction width generalizing n with
  | zero => rfl
  | succ width ih => simp [bytesOf, ih]

theorem unsigned_bytesOf (width : Nat) (n : Int) :
    (unsigned (bytesOf width n) : Int) = n % 256 ^ width := by
  induction width generalizing n with
  | zero => simp [bytesOf, unsigned]
  | succ width ih =>
    have hlow : ((UInt8.ofNat (n % 256).toNat).toNat : Int) = n % 256 := by
      rw [UInt8.toNat_ofNat']
      omega
    -- The low byte is the remainder by 256, the bytes above it spell the quotient.
    calc (unsigned (bytesOf (width + 1) n) : Int)
        = n % 256 + 256 * (n / 256 % 256 ^ width) := by
          rw [bytesOf, unsigned, Int.natCast_add, Int.natCast_mul, hlow, ih]
          rfl
      _ = n % (256 * 256 ^ width) := by
          rw [Int.emod_def (n / 256), Int.emod_def n (256 * 256 ^ width),
            Int.ediv_ediv_of_nonneg (by decide), Int.mul_sub, Int.mul_assoc]
          omega
      _ = n % 256 ^ (width + 1) := by rw [Int.pow_succ, Int.mul_comm]

/-- The bytes of a number that fits them spell it. -/
theorem signed_bytesOf {width : Nat} (hwidth : 0 < width) {n : Int} (h : FitsWidth width n) :
    signed (bytesOf width n) = n := by
  have hmodulus : ((Nat.pow 256 width : Nat) : Int) = 256 ^ width := Int.natCast_pow 256 width
  have hhalf := natPow_eq_two_mul hwidth
  unfold FitsWidth at h
  rw [signed, unsigned_bytesOf, length_bytesOf, ← hmodulus, Int.emod_bmod]
  refine Int.bmod_eq_of_le ?_ ?_ <;> omega

end LittleEndian

/-! ## One patch -/

/-- A byte string to be written at an offset. -/
structure Patch where
  start : Nat
  bytes : List UInt8
deriving DecidableEq, Repr

namespace Patch

/-- The offset behind the last byte. -/
def stop (p : Patch) : Nat := p.start + p.bytes.length

/-- One of two patches ends before the other one starts. -/
def Apart (p q : Patch) : Prop := p.stop ≤ q.start ∨ q.stop ≤ p.start

theorem Apart.symm {p q : Patch} (h : p.Apart q) : q.Apart p := Or.symm h

end Patch

namespace Image

variable {image : Image} {p q : Patch}

/-- The image with a patch written over it. The image keeps its size: what would come to stand
behind its end is lost. -/
def patch (image : Image) (p : Patch) : Image :=
  ⟨image.bytes.mapIdx fun i b => if p.start ≤ i then p.bytes.getD (i - p.start) b else b⟩

/-- The string of a patch stands at its place. -/
def Stands (image : Image) (p : Patch) : Prop :=
  p.stop ≤ image.size ∧ image.slice p.start p.stop = p.bytes

@[simp]
theorem size_patch : (image.patch p).size = image.size := Array.size_mapIdx

theorem byte?_patch (i : Nat) :
    (image.patch p).byte? i =
      (image.byte? i).map fun b => if p.start ≤ i then p.bytes.getD (i - p.start) b else b := by
  simp only [patch, byte?, Array.getElem?_mapIdx]

/-- A byte beside the patch is what it was. -/
theorem byte?_patch_of_outside {i : Nat} (h : i < p.start ∨ p.stop ≤ i) :
    (image.patch p).byte? i = image.byte? i := by
  have hsame : ∀ b : UInt8, (if p.start ≤ i then p.bytes.getD (i - p.start) b else b) = b := by
    intro b
    split
    · have hpast : p.bytes.length ≤ i - p.start := by
        unfold Patch.stop at h
        omega
      rw [List.getD_eq_getElem?_getD, List.getElem?_eq_none hpast, Option.getD_none]
    · rfl
  rw [byte?_patch]
  simp only [hsame, Option.map_id']

/-- A patch that fits the image stands there once it is written. -/
theorem stands_patch (h : p.stop ≤ image.size) : (image.patch p).Stands p := by
  refine ⟨by rwa [size_patch], List.ext_getElem? fun i => ?_⟩
  have hstop : p.stop = p.start + p.bytes.length := rfl
  rw [getElem?_slice]
  split
  · have hi : i < p.bytes.length := by omega
    rcases exists_byte?_iff.2 (show p.start + i < image.size by omega) with ⟨b, hb⟩
    rw [byte?_patch, hb, Option.map_some, if_pos (Nat.le_add_right _ _), Nat.add_sub_cancel_left,
      List.getD_eq_getElem?_getD, List.getElem?_eq_getElem hi, Option.getD_some]
  · rw [List.getElem?_eq_none (by omega)]

/-- What stands somewhere still stands after a patch beside it. -/
theorem Stands.patch (h : image.Stands q) (hapart : q.Apart p) : (image.patch p).Stands q := by
  refine ⟨by simpa using h.1, ?_⟩
  rw [← h.2]
  apply List.ext_getElem?
  intro i
  rw [getElem?_slice, getElem?_slice]
  split
  · refine byte?_patch_of_outside ?_
    unfold Patch.Apart at hapart
    omega
  · rfl

/-! ## A run of patches -/

/-- The image with the patches written over it, one after the other. -/
def patchAll (image : Image) (patches : List Patch) : Image := patches.foldl patch image

@[simp]
theorem size_patchAll (patches : List Patch) : (image.patchAll patches).size = image.size := by
  induction patches generalizing image with
  | nil => rfl
  | cons p patches ih => exact ih.trans size_patch

theorem Addressable.patchAll (himage : image.Addressable) (patches : List Patch) :
    (image.patchAll patches).Addressable := by
  unfold Addressable at himage ⊢
  rwa [size_patchAll]

/-- What stands somewhere still stands after patches that all lie beside it. -/
theorem Stands.patchAll {patches : List Patch} (h : image.Stands q)
    (hapart : ∀ p ∈ patches, q.Apart p) : (image.patchAll patches).Stands q := by
  induction patches generalizing image with
  | nil => exact h
  | cons p patches ih =>
    have hfirst : q.Apart p := hapart p (List.mem_cons_self ..)
    exact ih (h.patch hfirst) fun p' hp' => hapart p' (List.mem_cons_of_mem _ hp')

/-- Of patches that lie beside one another and fit the image, each stands in the end. -/
theorem stands_patchAll {patches : List Patch} (hapart : patches.Pairwise Patch.Apart)
    (hfits : ∀ p ∈ patches, p.stop ≤ image.size) (hq : q ∈ patches) :
    (image.patchAll patches).Stands q := by
  induction patches generalizing image with
  | nil => cases hq
  | cons p patches ih =>
    rcases List.pairwise_cons.1 hapart with ⟨hbeside, hrest⟩
    rcases List.mem_cons.1 hq with rfl | hlater
    · -- It stands once it is written, and no later patch touches it.
      have hwritten := stands_patch (hfits q (List.mem_cons_self ..))
      exact hwritten.patchAll hbeside
    · refine ih hrest (fun p' hp' => ?_) hlater
      rw [size_patch]
      exact hfits p' (List.mem_cons_of_mem _ hp')

/-! ## What a reader finds -/

/-- A written number is read back. -/
theorem signedAt_of_stands {width start : Nat} {n : Int} (hwidth : 0 < width)
    (hfits : FitsWidth width n) (h : image.Stands ⟨start, LittleEndian.bytesOf width n⟩) :
    image.SignedAt width start n := by
  rcases h with ⟨hend, hbytes⟩
  simp only [Patch.stop, LittleEndian.length_bytesOf] at hend hbytes
  refine ⟨Int.natCast_nonneg start, by omega, ?_⟩
  rw [Int.toNat_natCast, hbytes, LittleEndian.signed_bytesOf hwidth hfits]

/-- A written byte is read back. -/
theorem byteAt_of_stands {start : Nat} {b : UInt8} (h : image.Stands ⟨start, [b]⟩) :
    image.ByteAt start b.toNat := by
  rcases h with ⟨-, hbytes⟩
  refine ⟨Int.natCast_nonneg start, b, ?_, rfl⟩
  have hfirst : (image.slice start (start + 1))[0]? = image.byte? start := by
    simp [getElem?_slice]
  rw [Int.toNat_natCast, ← hfirst]
  exact congrArg (·[0]?) hbytes

end Image

/-! ## Strings behind one another -/

/-- Byte strings that are written one behind the other from an offset on. -/
structure Strip where
  start : Nat
  chunks : List (List UInt8)
deriving DecidableEq, Repr

namespace Strip

/-- The number of bytes of all strings. -/
def length (s : Strip) : Nat := s.chunks.flatten.length

/-- The offset behind the last string. -/
def stop (s : Strip) : Nat := s.start + s.length

/-- One of two strips ends before the other one starts. -/
def Apart (s t : Strip) : Prop := s.stop ≤ t.start ∨ t.stop ≤ s.start

instance (s t : Strip) : Decidable (s.Apart t) := instDecidableOr

/-- A patch for each string, each where the one before it ends. -/
def patchesFrom : (start : Nat) → (chunks : List (List UInt8)) → List Patch
  | _, [] => []
  | start, chunk :: chunks => ⟨start, chunk⟩ :: patchesFrom (start + chunk.length) chunks

/-- The patches of a strip. -/
def patches (s : Strip) : List Patch := patchesFrom s.start s.chunks

theorem patches_pair (start : Nat) (first second : List UInt8) :
    patches ⟨start, [first, second]⟩ = [⟨start, first⟩, ⟨start + first.length, second⟩] := rfl

/-- The patches of a strip lie in its bounds. -/
theorem bounds_of_mem_patchesFrom {start : Nat} {chunks : List (List UInt8)} {p : Patch}
    (h : p ∈ patchesFrom start chunks) :
    start ≤ p.start ∧ p.stop ≤ start + chunks.flatten.length := by
  induction chunks generalizing start with
  | nil => cases h
  | cons chunk chunks ih =>
    rw [List.flatten_cons, List.length_append]
    rcases List.mem_cons.1 h with rfl | hlater
    · simp only [Patch.stop]
      omega
    · have hbounds := ih hlater
      omega

theorem bounds_of_mem_patches {s : Strip} {p : Patch} (h : p ∈ s.patches) :
    s.start ≤ p.start ∧ p.stop ≤ s.stop :=
  bounds_of_mem_patchesFrom h

theorem pairwise_patchesFrom (start : Nat) (chunks : List (List UInt8)) :
    (patchesFrom start chunks).Pairwise Patch.Apart := by
  induction chunks generalizing start with
  | nil => exact .nil
  | cons chunk chunks ih =>
    refine List.pairwise_cons.2 ⟨fun p hp => .inl ?_, ih _⟩
    exact (bounds_of_mem_patchesFrom hp).1

/-- Strips that lie beside one another are written without any patch on another one. -/
theorem pairwise_flatMap_patches {strips : List Strip} (h : strips.Pairwise Apart) :
    (strips.flatMap patches).Pairwise Patch.Apart := by
  refine List.pairwise_flatMap.2 ⟨fun s _ => pairwise_patchesFrom s.start s.chunks, ?_⟩
  refine h.imp fun {s t} hapart p hp q hq => ?_
  have hp := bounds_of_mem_patches hp
  have hq := bounds_of_mem_patches hq
  unfold Apart at hapart
  unfold Patch.Apart
  omega

/-- Among strings of one length, each stands as many lengths behind the start as there are strings
before it. -/
theorem mem_patchesFrom_of_getElem? {start width i : Nat} {chunks : List (List UInt8)}
    {chunk : List UInt8} (hwidth : ∀ chunk ∈ chunks, chunk.length = width)
    (h : chunks[i]? = some chunk) : ⟨start + width * i, chunk⟩ ∈ patchesFrom start chunks := by
  induction chunks generalizing start i with
  | nil => simp at h
  | cons first chunks ih =>
    cases i with
    | zero =>
      obtain rfl : first = chunk := by simpa using h
      exact List.mem_cons_self ..
    | succ i =>
      have hfirst := hwidth first (List.mem_cons_self ..)
      have hrest : ⟨start + first.length + width * i, chunk⟩ ∈
          patchesFrom (start + first.length) chunks :=
        ih (fun c hc => hwidth c (List.mem_cons_of_mem _ hc)) (by simpa using h)
      have hplace : start + width * (i + 1) = start + first.length + width * i := by
        rw [Nat.mul_succ, hfirst]
        omega
      rw [hplace]
      exact List.mem_cons_of_mem _ hrest

end Strip

end OpcodeAtlas
