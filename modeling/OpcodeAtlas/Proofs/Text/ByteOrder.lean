import Mathlib.Data.String.Basic
import OpcodeAtlas.Proofs.Text.Encoding

/-!
# OpcodeAtlas.Proofs.Text.ByteOrder — the order of texts is the order of their bytes

Texts are compared character by character. Comparing their UTF-8 bytes gives the same answer, as the
bytes of a smaller character decide before those of a greater one come to an end:

* `encode_cases` — the four lengths of a character, each with a range of its own;
* `encode_lt_encode_of_lt` — two different characters decide, whatever follows them;
* `encode_lt_encode` — by induction, so do the first characters in which two texts differ;
* `utf8_lt_utf8_iff`, `utf8_le_utf8_iff` — the two orders of texts.
-/

namespace OpcodeAtlas.Text

/-- The bytes of a character by the range of its code. -/
theorem encode_cases (c : Char) :
    c.toNat < 0x80 ∧ encode [c] = [UInt8.ofNat c.toNat] ∨
    0x80 ≤ c.toNat ∧ c.toNat < 0x800 ∧
      encode [c] = [UInt8.ofNat (c.toNat / 64 + 0xC0), UInt8.ofNat (c.toNat % 64 + 0x80)] ∨
    0x800 ≤ c.toNat ∧ c.toNat < 0x10000 ∧
      encode [c] = [UInt8.ofNat (c.toNat / 64 / 64 + 0xE0),
        UInt8.ofNat (c.toNat / 64 % 64 + 0x80), UInt8.ofNat (c.toNat % 64 + 0x80)] ∨
    0x10000 ≤ c.toNat ∧ c.toNat < 0x110000 ∧
      encode [c] = [UInt8.ofNat (c.toNat / 64 / 64 / 64 + 0xF0),
        UInt8.ofNat (c.toNat / 64 / 64 % 64 + 0x80), UInt8.ofNat (c.toNat / 64 % 64 + 0x80),
        UInt8.ofNat (c.toNat % 64 + 0x80)] := by
  have hlimit : c.toNat < 0x110000 := by
    rcases c.valid with hvalid | ⟨-, hvalid⟩ <;> simp only [Char.toNat] <;> omega
  have hbytes : encode [c] = String.utf8EncodeChar c := List.append_nil _
  rw [hbytes, String.utf8EncodeChar]
  change c.val.toNat < 0x110000 at hlimit
  simp only [Char.toNat]
  generalize c.val.toNat = n at hlimit
  split
  · exact .inl ⟨by omega, rfl⟩
  · split
    · have hlead : n / 64 % 32 = n / 64 := Nat.mod_eq_of_lt (by omega)
      exact .inr (.inl ⟨by omega, by omega, by rw [hlead]⟩)
    · split
      · have hlead : n / 4096 % 16 = n / 64 / 64 := by omega
        exact .inr (.inr (.inl ⟨by omega, by omega, by rw [hlead]⟩))
      · have hlead : n / 262144 % 8 = n / 64 / 64 / 64 := by omega
        have hnext : n / 4096 % 64 = n / 64 / 64 % 64 := by omega
        exact .inr (.inr (.inr ⟨by omega, by omega, by rw [hlead, hnext]⟩))

/-- The bytes of a smaller character come first, whatever follows them. -/
theorem encode_lt_encode_of_lt {c d : Char} (h : c.toNat < d.toNat) (bytes others : List UInt8) :
    encode [c] ++ bytes < encode [d] ++ others := by
  -- A shorter character has a smaller lead byte; of two as long as each other the digits decide.
  rcases encode_cases c with ⟨_, hc⟩ | ⟨_, _, hc⟩ | ⟨_, _, hc⟩ | ⟨_, _, hc⟩ <;>
  rcases encode_cases d with ⟨_, hd⟩ | ⟨_, _, hd⟩ | ⟨_, _, hd⟩ | ⟨_, _, hd⟩ <;>
  · rw [hc, hd]
    simp only [List.cons_append, List.nil_append, List.cons_lt_cons_iff, UInt8.lt_iff_toNat_lt,
      ← UInt8.toNat_inj, UInt8.toNat_ofNat']
    omega

theorem encode_lt_encode {cs ds : List Char} (h : cs < ds) : encode cs < encode ds := by
  induction cs generalizing ds with
  | nil =>
    cases ds with
    | nil => exact absurd h (List.not_lt_nil _)
    | cons d ds =>
      obtain ⟨b, bytes, hbytes⟩ : ∃ b bytes, encode (d :: ds) = b :: bytes :=
        List.exists_cons_of_length_pos
          (Nat.lt_of_lt_of_le (Nat.zero_lt_succ _) (length_le_encode (d :: ds)))
      rw [hbytes]
      exact List.nil_lt_cons _ _
  | cons c cs ih =>
    cases ds with
    | nil => exact absurd h (List.not_lt_nil _)
    | cons d ds =>
      rw [encode_cons c, encode_cons d]
      rcases List.cons_lt_cons_iff.1 h with hlt | ⟨rfl, hrest⟩
      · exact encode_lt_encode_of_lt hlt _ _
      · exact List.append_left_lt (ih hrest)

theorem utf8_lt_utf8_iff {s t : String} : utf8 s < utf8 t ↔ s < t := by
  rw [utf8_eq_encode, utf8_eq_encode, String.lt_iff_toList_lt]
  refine ⟨fun h => ?_, encode_lt_encode⟩
  -- Equal texts have equal bytes, and the bytes of a greater text come behind.
  rcases lt_trichotomy s.toList t.toList with hlt | heq | hgt
  · exact hlt
  · rw [heq] at h
    exact absurd h (List.lt_irrefl _)
  · exact absurd (encode_lt_encode hgt) (List.lt_asymm h)

/-- A text is at most as great as another when its bytes are. -/
theorem utf8_le_utf8_iff {s t : String} : utf8 s ≤ utf8 t ↔ s ≤ t := by
  rw [← List.not_lt, utf8_lt_utf8_iff, not_lt]

end OpcodeAtlas.Text
