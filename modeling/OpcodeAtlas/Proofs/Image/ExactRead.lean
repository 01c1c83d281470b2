import OpcodeAtlas.Proofs.Image.Patch

/-!
# OpcodeAtlas.Proofs.Image.ExactRead — a read finds what stands there and nothing else

The bytes of an image stand in front of one another (`HasBytes`), and a number is written as the
bytes of its two's complement, low byte first (`LittleEndian.bytesOf`). A read is exact when it finds
the one value whose bytes stand at the offset, succeeds wherever its window lies in the image, and
says otherwise which window it wanted (`ExactRead`):

* `LittleEndian.signed_eq_iff`, `LittleEndian.unsigned_eq_iff` — bytes and numbers determine each
  other;
* `exactRead_readBytes` — the read of a window is exact, as offsets are added with care;
* `ExactRead.map` — so is a read that decodes the window;
* `numberAt_iff` — at a signed position there are three ways to fail (`NumberAt`);
* `reads_exact` — every read of an image.
-/

namespace OpcodeAtlas

/-! ## Numbers and their bytes -/

namespace LittleEndian

/-- Different strings of equally many bytes spell different numbers. -/
theorem unsigned_injective {bytes others : List UInt8} (hlength : bytes.length = others.length)
    (h : unsigned bytes = unsigned others) : bytes = others := by
  induction bytes generalizing others with
  | nil =>
    cases others with
    | nil => rfl
    | cons b' rest' => cases hlength
  | cons b rest ih =>
    cases others with
    | nil => cases hlength
    | cons b' rest' =>
      rw [List.length_cons, List.length_cons, Nat.add_right_cancel_iff] at hlength
      rw [unsigned, unsigned] at h
      have hb : b.toNat < 256 := b.toNat_lt
      have hb' : b'.toNat < 256 := b'.toNat_lt
      -- The low byte is the remainder by 256, the bytes above it spell the quotient.
      have hlow : b = b' := UInt8.toNat_inj.1 (by omega)
      have hhigh : rest = rest' := ih hlength (by omega)
      rw [hlow, hhigh]

theorem unsigned_bytesOf_natCast (width n : Nat) : unsigned (bytesOf width n) = n % 256 ^ width := by
  apply Int.natCast_inj.1
  rw [unsigned_bytesOf, Int.natCast_emod, Int.natCast_pow]
  rfl

/-- Bytes spell a number without sign if it is in their range and they are its bytes. -/
theorem unsigned_eq_iff {width n : Nat} {bytes : List UInt8} (hlength : bytes.length = width) :
    unsigned bytes = n ↔ n < 256 ^ width ∧ bytesOf width n = bytes := by
  subst hlength
  constructor
  · rintro rfl
    have hrange : unsigned bytes < 256 ^ bytes.length := unsigned_lt bytes
    refine ⟨hrange, unsigned_injective (length_bytesOf _ _) ?_⟩
    rw [unsigned_bytesOf_natCast, Nat.mod_eq_of_lt hrange]
  · rintro ⟨hrange, hbytes⟩
    rw [← hbytes, unsigned_bytesOf_natCast, Nat.mod_eq_of_lt hrange]

/-- Bytes spell a signed number if it is in their range and they are its bytes. -/
theorem signed_eq_iff {width : Nat} (hwidth : 0 < width) {n : Int} {bytes : List UInt8}
    (hlength : bytes.length = width) :
    signed bytes = n ↔ FitsWidth width n ∧ bytesOf width n = bytes := by
  subst hlength
  constructor
  · rintro rfl
    refine ⟨fitsWidth_signed (List.length_pos_iff.1 hwidth), ?_⟩
    refine unsigned_injective (length_bytesOf _ _) ?_
    have hmodulus : ((Nat.pow 256 bytes.length : Nat) : Int) = 256 ^ bytes.length :=
      Int.natCast_pow 256 bytes.length
    -- Two's complement moves a number by a multiple of the modulus.
    have hspelled : (unsigned (bytesOf bytes.length (signed bytes)) : Int) = unsigned bytes := by
      rw [unsigned_bytesOf, signed, ← hmodulus, Int.bmod_emod]
      have hrange := unsigned_lt bytes
      exact Int.emod_eq_of_lt (by omega) (by omega)
    exact_mod_cast hspelled
  · rintro ⟨hfits, hbytes⟩
    rw [← hbytes]
    exact signed_bytesOf hwidth hfits

end LittleEndian

namespace Image

variable {image : Image} {α β : Type}

/-! ## Bytes of an image -/

/-- The bytes stand in the image, with `offset` bytes in front of them. -/
def HasBytes (image : Image) (offset : Nat) (bytes : List UInt8) : Prop :=
  ∃ front back, image.bytes.toList = front ++ bytes ++ back ∧ front.length = offset

theorem slice_eq_take_drop (image : Image) (offset length : Nat) :
    image.slice offset (offset + length) = (image.bytes.toList.drop offset).take length := by
  rw [slice, Array.toList_extract, List.extract_eq_take_drop, Nat.add_sub_cancel_left]

/-- The bytes that stand at an offset are the window of their length. -/
theorem hasBytes_iff {offset : Nat} {bytes : List UInt8} :
    image.HasBytes offset bytes ↔ offset + bytes.length ≤ image.size ∧
      image.slice offset (offset + bytes.length) = bytes := by
  have hsize : image.bytes.toList.length = image.size := Array.length_toList
  rw [slice_eq_take_drop]
  constructor
  · rintro ⟨front, back, hbytes, rfl⟩
    refine ⟨?_, ?_⟩
    · rw [← hsize, hbytes, List.length_append, List.length_append]
      omega
    · rw [hbytes, List.append_assoc, List.drop_left, List.take_left]
  · rintro ⟨hend, hbytes⟩
    refine ⟨image.bytes.toList.take offset, image.bytes.toList.drop (offset + bytes.length), ?_, ?_⟩
    · have hrest : bytes ++ image.bytes.toList.drop (offset + bytes.length) =
          image.bytes.toList.drop offset := by
        calc bytes ++ image.bytes.toList.drop (offset + bytes.length)
            = (image.bytes.toList.drop offset).take bytes.length ++
                (image.bytes.toList.drop offset).drop bytes.length := by
              rw [hbytes, List.drop_drop]
          _ = image.bytes.toList.drop offset := List.take_append_drop _ _
      rw [List.append_assoc, hrest, List.take_append_drop]
    · rw [List.length_take, hsize]
      omega

/-! ## Exact reads -/

/-- A read of `width` bytes is exact: it finds the values of a range whose bytes stand at the offset,
it finds one wherever the window lies in the image, and it names the window where it does not. -/
structure ExactRead (image : Image) (width : Nat) (Range : α → Prop) (encode : α → List UInt8)
    (read : Nat → Except ReadError α) : Prop where
  finds : ∀ offset a, read offset = .ok a ↔ Range a ∧ image.HasBytes offset (encode a)
  succeeds : ∀ offset, (∃ a, read offset = .ok a) ↔ offset + width ≤ image.size
  fails : ∀ offset, image.size < offset + width →
    read offset = .error (.outOfRange offset width image.size)

/-- In an image whose length is an offset, no window is refused because its end is none. -/
theorem exactRead_readBytes (himage : image.Addressable) (length : Nat) :
    image.ExactRead length (fun bytes => bytes.length = length) id (image.readBytes · length) where
  finds offset bytes := by
    rw [readBytes_eq_ok_iff, id_eq, hasBytes_iff]
    constructor
    · rintro ⟨-, hend, rfl⟩
      have hlength : (image.slice offset (offset + length)).length = length := by
        rw [length_slice hend]
        omega
      rw [hlength]
      exact ⟨rfl, hend, rfl⟩
    · rintro ⟨rfl, hend, hbytes⟩
      have hlimit : ((offset + bytes.length : Nat) : Int) < Offset.limit :=
        himage.lt_limit (by omega)
      exact ⟨by omega, hend, hbytes⟩
  succeeds offset := by
    constructor
    · rintro ⟨bytes, hread⟩
      exact (readBytes_eq_ok_iff.1 hread).2.1
    · intro hend
      have hlimit : ((offset + length : Nat) : Int) < Offset.limit := himage.lt_limit (by omega)
      exact ⟨_, readBytes_eq_ok_iff.2 ⟨by omega, hend, rfl⟩⟩
  fails offset hout := readBytes_eq_error_iff.2 ⟨by omega, rfl⟩

/-- What is decoded from an exact read is read exactly, if bytes and values determine each other. -/
theorem ExactRead.map {width : Nat} {Range : β → Prop} {decode : List UInt8 → β}
    {encode : β → List UInt8} {read : Nat → Except ReadError (List UInt8)}
    (h : image.ExactRead width (fun bytes => bytes.length = width) id read)
    (hlength : ∀ b, (encode b).length = width)
    (hcode : ∀ bytes b, bytes.length = width → (decode bytes = b ↔ Range b ∧ encode b = bytes)) :
    image.ExactRead width Range encode fun offset => (read offset).map decode where
  finds offset b := by
    rw [Outcome.map_eq_ok]
    constructor
    · rintro ⟨bytes, hread, hdecode⟩
      rcases (h.finds offset bytes).1 hread with ⟨hwidth, hbytes⟩
      rcases (hcode bytes b hwidth).1 hdecode with ⟨hrange, rfl⟩
      exact ⟨hrange, hbytes⟩
    · rintro ⟨hrange, hbytes⟩
      exact ⟨encode b, (h.finds offset _).2 ⟨hlength b, hbytes⟩,
        (hcode _ b (hlength b)).2 ⟨hrange, rfl⟩⟩
  succeeds offset := by
    rw [← h.succeeds]
    constructor
    · rintro ⟨b, hread⟩
      rcases Outcome.map_eq_ok.1 hread with ⟨bytes, hbytes, -⟩
      exact ⟨bytes, hbytes⟩
    · rintro ⟨bytes, hbytes⟩
      exact ⟨decode bytes, Outcome.map_eq_ok.2 ⟨bytes, hbytes, rfl⟩⟩
  fails offset hout := by
    rw [h.fails offset hout]
    rfl

section Addressable

variable (himage : image.Addressable)
include himage

theorem exactRead_readU8 :
    image.ExactRead 1 (· < 256) (fun n : Nat => LittleEndian.bytesOf 1 n) image.readU8 := by
  refine (exactRead_readBytes himage 1).map (fun n => LittleEndian.length_bytesOf 1 n) ?_
  intro bytes n hlength
  exact LittleEndian.unsigned_eq_iff hlength

/-- A signed number of any width is read exactly. -/
theorem exactRead_signed {width : Nat} (hwidth : 0 < width) :
    image.ExactRead width (FitsWidth width) (LittleEndian.bytesOf width)
      fun offset => (image.readBytes offset width).map LittleEndian.signed := by
  refine (exactRead_readBytes himage width).map (LittleEndian.length_bytesOf width) ?_
  intro bytes n hlength
  exact LittleEndian.signed_eq_iff hwidth hlength

end Addressable

/-! ## Signed positions -/

/-- At a signed position the same number is read as at the offset. -/
theorem readI32At_eq_ok_iff_readI32 {position n : Int} :
    image.readI32At position = .ok n ↔
      0 ≤ position ∧ position ≤ image.size ∧ image.readI32 position.toNat = .ok n := by
  rw [readI32At, Outcome.bind_eq_ok]
  constructor
  · rintro ⟨offset, hoffset, hread⟩
    rcases offsetOf_eq_ok_iff.1 hoffset with ⟨rfl, hsize⟩
    rw [Int.toNat_natCast]
    exact ⟨by omega, by omega, hread⟩
  · rintro ⟨hstart, hend, hread⟩
    exact ⟨position.toNat, offsetOf_eq_ok_iff.2 ⟨by omega, by omega⟩, hread⟩

/-- What the four bytes at a position come to: the position lies in front of the image, behind its
end, or too near to its end, or it is that of a number. -/
inductive NumberAt (image : Image) (position : Int) : Except ReadError Int → Prop
  | inFront (hfront : position < 0) :
      image.NumberAt position (.error (.negativePosition position))
  | pastEnd (hpast : image.size < position) :
      image.NumberAt position (.error (.outOfRange position.toNat 0 image.size))
  | cutShort (hstart : 0 ≤ position) (hinside : position ≤ image.size)
      (hshort : image.size < position + 4) :
      image.NumberAt position (.error (.outOfRange position.toNat 4 image.size))
  | found {n : Int} (hstart : 0 ≤ position) (hfits : FitsWidth 4 n)
      (hbytes : image.HasBytes position.toNat (LittleEndian.bytesOf 4 n)) :
      image.NumberAt position (.ok n)

section Addressable

variable (himage : image.Addressable)
include himage

theorem numberAt_iff {position : Int} {outcome : Except ReadError Int} :
    image.NumberAt position outcome ↔ image.readI32At position = outcome := by
  have hexact : image.ExactRead 4 (FitsWidth 4) (LittleEndian.bytesOf 4) image.readI32 :=
    exactRead_signed himage (by decide)
  constructor
  · intro h
    cases h with
    | inFront hfront => exact readI32At_negative hfront
    | pastEnd hpast => exact readI32At_past_end hpast
    | cutShort hstart hinside hshort => exact readI32At_truncated hstart hinside hshort
    | found hstart hfits hbytes =>
      have hread := (hexact.finds _ _).2 ⟨hfits, hbytes⟩
      have hend := (hexact.succeeds _).1 ⟨_, hread⟩
      exact readI32At_eq_ok_iff_readI32.2 ⟨hstart, by omega, hread⟩
  · rintro rfl
    by_cases hfront : position < 0
    · rw [readI32At_negative hfront]
      exact .inFront hfront
    by_cases hpast : image.size < position
    · rw [readI32At_past_end hpast]
      exact .pastEnd hpast
    have hstart : 0 ≤ position := by omega
    have hinside : position ≤ image.size := by omega
    by_cases hshort : image.size < position + 4
    · rw [readI32At_truncated hstart hinside hshort]
      exact .cutShort hstart hinside hshort
    · rcases (hexact.succeeds position.toNat).2 (by omega) with ⟨n, hread⟩
      rcases (hexact.finds _ _).1 hread with ⟨hfits, hbytes⟩
      rw [readI32At_eq_ok_iff_readI32.2 ⟨hstart, hinside, hread⟩]
      exact .found hstart hfits hbytes

end Addressable

/-- Every read of an image is exact. A window is read if its exact end lies in the image, and what is
found are its bytes; any other window is refused with its offset and length, also if its end is no
offset of 64 bits. A number is read if its window lies in the image, and it is the one number of its
range whose little-endian bytes stand there: from 0 to 255, from -128 to 127, or from `-2 ^ 31` to
`2 ^ 31 - 1`. At a signed position there are three ways to fail: in front of the image, however short
it is; behind its end; and at one of its positions with fewer than four bytes behind it. -/
theorem reads_exact (himage : image.Addressable) :
    (∀ length, image.ExactRead length (fun bytes => bytes.length = length) id
      (image.readBytes · length)) ∧
    image.ExactRead 1 (· < 256) (fun n : Nat => LittleEndian.bytesOf 1 n) image.readU8 ∧
    image.ExactRead 1 (FitsWidth 1) (LittleEndian.bytesOf 1) image.readI8 ∧
    image.ExactRead 4 (FitsWidth 4) (LittleEndian.bytesOf 4) image.readI32 ∧
    ∀ position : Int,
      (image.readI32At position = .error (.negativePosition position) ↔ position < 0) ∧
      (image.readI32At position = .error (.outOfRange position.toNat 0 image.size) ↔
        image.size < position) ∧
      (image.readI32At position = .error (.outOfRange position.toNat 4 image.size) ↔
        0 ≤ position ∧ position ≤ image.size ∧ image.size < position + 4) ∧
      ((∃ n, image.readI32At position = .ok n) ↔ 0 ≤ position ∧ position + 4 ≤ image.size) ∧
      ∀ n, image.readI32At position = .ok n ↔
        0 ≤ position ∧ FitsWidth 4 n ∧
          image.HasBytes position.toNat (LittleEndian.bytesOf 4 n) := by
  have hnumber : image.ExactRead 4 (FitsWidth 4) (LittleEndian.bytesOf 4) image.readI32 :=
    exactRead_signed himage (by decide)
  refine ⟨exactRead_readBytes himage, exactRead_readU8 himage, exactRead_signed himage (by decide),
    hnumber, ?_⟩
  intro position
  simp only [← numberAt_iff himage]
  refine ⟨⟨?_, .inFront⟩, ⟨?_, .pastEnd⟩, ⟨?_, fun h => .cutShort h.1 h.2.1 h.2.2⟩, ⟨?_, ?_⟩,
    fun n => ⟨?_, fun h => .found h.1 h.2.1 h.2.2⟩⟩
  · intro h
    cases h with
    | inFront hfront => exact hfront
  · intro h
    cases h with
    | pastEnd hpast => exact hpast
  · intro h
    cases h with
    | cutShort hstart hinside hshort => exact ⟨hstart, hinside, hshort⟩
  · rintro ⟨n, h⟩
    cases h with
    | found hstart hfits hbytes =>
      have hend := (hnumber.succeeds _).1 ⟨_, (hnumber.finds _ _).2 ⟨hfits, hbytes⟩⟩
      exact ⟨hstart, by omega⟩
  · rintro ⟨hstart, hend⟩
    rcases (hnumber.succeeds position.toNat).2 (by omega) with ⟨n, hread⟩
    rcases (hnumber.finds _ _).1 hread with ⟨hfits, hbytes⟩
    exact ⟨n, .found hstart hfits hbytes⟩
  · intro h
    cases h with
    | found hstart hfits hbytes => exact ⟨hstart, hfits, hbytes⟩

/-- An image of six bytes: the least number of four bytes, and two bytes behind it. -/
def sixBytes : Image := .ofList [0, 0, 0, 0x80, 0xFF, 0x7F]

/-- The sign is that of the highest byte, and every way to fail is met. -/
theorem reads_exact_sixBytes :
    sixBytes.readI32 0 = .ok (-0x8000_0000) ∧ sixBytes.readU8 3 = .ok 0x80 ∧
    sixBytes.readI8 3 = .ok (-0x80) ∧ sixBytes.readBytes 4 2 = .ok [0xFF, 0x7F] ∧
    sixBytes.readBytes 0xFFFFFFFFFFFFFFFF 2 = .error (.outOfRange 0xFFFFFFFFFFFFFFFF 2 6) ∧
    sixBytes.readI32At (-1) = .error (.negativePosition (-1)) ∧
    sixBytes.readI32At 7 = .error (.outOfRange 7 0 6) ∧
    sixBytes.readI32At 6 = .error (.outOfRange 6 4 6) ∧
    sixBytes.readI32At 3 = .error (.outOfRange 3 4 6) ∧
    sixBytes.readI32At 2 = .ok 0x7FFF_8000 := by
  have hsize : sixBytes.Addressable := by decide
  rcases reads_exact hsize with ⟨hbytes, hu8, hi8, hi32, hat⟩
  refine ⟨(hi32.finds _ _).2 ⟨fitsWidth_four.2 (by decide), [], [0xFF, 0x7F], rfl, rfl⟩,
    (hu8.finds _ _).2 ⟨by decide, [0, 0, 0], [0xFF, 0x7F], rfl, rfl⟩,
    (hi8.finds _ _).2 ⟨fitsWidth_one.2 (by decide), [0, 0, 0], [0xFF, 0x7F], rfl, rfl⟩,
    ((hbytes 2).finds _ _).2 ⟨rfl, [0, 0, 0, 0x80], [], rfl, rfl⟩,
    (hbytes 2).fails _ (by decide), (hat _).1.2 (by decide), (hat _).2.1.2 (by decide),
    (hat _).2.2.1.2 (by decide), (hat _).2.2.1.2 (by decide),
    ((hat _).2.2.2.2 _).2 ⟨by decide, fitsWidth_four.2 (by decide), [0, 0], [], rfl, rfl⟩⟩

end Image

end OpcodeAtlas
