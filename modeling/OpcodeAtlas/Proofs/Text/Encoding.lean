import OpcodeAtlas.Text.Utf8

/-!
# OpcodeAtlas.Proofs.Text.Encoding — the bytes of characters

The UTF-8 encoding of a text is the encodings of its characters, one after the other. A character
below U+0080 is one byte, the byte of its code; all bytes of any other character lie from 0x80 on,
so that no part of it can be taken for a character below.

* `utf8_ofList`, `utf8_eq_encode` — a text as bytes, character by character;
* `length_le_encode` — no character is without bytes;
* `encode_ascii`, `le_of_mem_encode` — the two kinds of characters.
-/

namespace OpcodeAtlas.Text

/-- The bytes of characters, one character after the other. -/
def encode (cs : List Char) : List UInt8 := cs.flatMap String.utf8EncodeChar

theorem encode_append (cs ds : List Char) : encode (cs ++ ds) = encode cs ++ encode ds :=
  List.flatMap_append

theorem encode_cons (c : Char) (cs : List Char) : encode (c :: cs) = encode [c] ++ encode cs :=
  encode_append [c] cs

theorem utf8_ofList (cs : List Char) : utf8 (String.ofList cs) = encode cs := by
  unfold utf8 encode
  rw [String.toByteArray_ofList, List.utf8Encode, List.data_toByteArray]

theorem utf8_eq_encode (s : String) : utf8 s = encode s.toList := by
  rw [← utf8_ofList, String.ofList_toList]

/-- Every character takes a byte at least. -/
theorem length_le_encode (cs : List Char) : cs.length ≤ (encode cs).length := by
  induction cs with
  | nil => exact Nat.le_refl _
  | cons c others ih =>
    have hchar : 0 < (encode [c]).length := by
      simp only [encode, List.flatMap_cons, List.flatMap_nil, List.append_nil]
      exact List.length_pos_iff.2 String.utf8EncodeChar_ne_nil
    rw [encode_cons, List.length_append, List.length_cons]
    omega

/-- A character below U+0080 is the byte of its code. -/
theorem encode_ascii {c : Char} (h : c.toNat < 0x80) : encode [c] = [UInt8.ofNat c.toNat] := by
  have hle : c.val.toNat ≤ 127 := Nat.le_of_lt_succ h
  simp only [encode, List.flatMap_cons, List.flatMap_nil, List.append_nil, String.utf8EncodeChar,
    if_pos hle]
  rfl

/-- All bytes of a character from U+0080 on lie from 0x80 on. -/
theorem le_of_mem_encode {c : Char} (h : 0x80 ≤ c.toNat) {b : UInt8} (hb : b ∈ encode [c]) :
    0x80 ≤ b.toNat := by
  have hnot : ¬c.val.toNat ≤ 127 := Nat.not_le_of_gt h
  simp only [encode, List.flatMap_cons, List.flatMap_nil, List.append_nil, String.utf8EncodeChar,
    if_neg hnot] at hb
  -- Two, three or four bytes, each a remainder to which at least 0x80 is added.
  split at hb
  · simp only [List.mem_cons, List.not_mem_nil, or_false] at hb
    rcases hb with rfl | rfl <;> rw [UInt8.toNat_ofNat'] <;> omega
  · split at hb
    · simp only [List.mem_cons, List.not_mem_nil, or_false] at hb
      rcases hb with rfl | rfl | rfl <;> rw [UInt8.toNat_ofNat'] <;> omega
    · simp only [List.mem_cons, List.not_mem_nil, or_false] at hb
      rcases hb with rfl | rfl | rfl | rfl <;> rw [UInt8.toNat_ofNat'] <;> omega

end OpcodeAtlas.Text
