import OpcodeAtlas.Json.Text
import OpcodeAtlas.Json.Writer
import OpcodeAtlas.Proofs.Outcome
import OpcodeAtlas.Proofs.Text.Encoding

/-!
# OpcodeAtlas.Proofs.Json.Quoted — text between quotes is read back

What the writer makes of a character the reader takes for the bytes of the character (`Spells`):

* `escaped_cases` — the three ways to write a character: a backslash and a letter, a backslash and
  the digits of its code, or the character itself;
* `spells_escaped` — in each of them the reader finds the bytes of the character;
* `text_inQuotes` — so it does in a whole text, up to the closing quote.
-/

namespace OpcodeAtlas.Json

open Text (encode encode_append encode_cons encode_ascii le_of_mem_encode)

/-! ## Writing a character -/

/-- Between quotes the byte stands for itself. -/
def IsPlain (b : UInt8) : Prop := 0x20 ≤ b.toNat ∧ b ≠ 0x22 ∧ b ≠ 0x5C

instance (b : UInt8) : Decidable (IsPlain b) := inferInstanceAs (Decidable (_ ∧ _ ∧ _))

/-- A character that needs no escape is made of bytes that stand for themselves. -/
theorem isPlain_of_mem_encode {c : Char} (hcode : 0x20 ≤ c.toNat) (hquote : c ≠ '"')
    (hbackslash : c ≠ '\\') {b : UInt8} (hb : b ∈ encode [c]) : IsPlain b := by
  rcases Nat.lt_or_ge c.toNat 0x80 with hascii | hother
  · rw [encode_ascii hascii, List.mem_singleton] at hb
    subst hb
    have hcodeOf : (UInt8.ofNat c.toNat).toNat = c.toNat := by
      rw [UInt8.toNat_ofNat']
      omega
    refine ⟨by omega, fun heq => hquote ?_, fun heq => hbackslash ?_⟩
    · apply Char.toNat_inj.1
      rw [← hcodeOf, heq]
      rfl
    · apply Char.toNat_inj.1
      rw [← hcodeOf, heq]
      rfl
  · have hle := le_of_mem_encode hother hb
    refine ⟨by omega, ?_, ?_⟩ <;>
    · rintro rfl
      exact absurd hle (by decide)

/-- A character is written as a backslash and the letter of a byte that it is, as a backslash and
the digits of a code below U+0020, or as itself. -/
theorem escaped_cases (c : Char) :
    (∃ letter b meant, escaped c = ['\\', letter] ∧ encode (escaped c) = [0x5C, b] ∧
      Escape.letter? b = some meant ∧ encode [c] = [meant]) ∨
    (c.toNat < 0x20 ∧ escaped c =
      ['\\', 'u', '0', '0', Nat.digitChar (c.toNat / 16), Nat.digitChar (c.toNat % 16)]) ∨
    (escaped c = [c] ∧ c ≠ '"' ∧ c ≠ '\\' ∧ ∀ b ∈ encode [c], IsPlain b) := by
  by_cases hletter : c ∈ ['"', '\\', '\x08', '\t', '\n', '\x0c', '\r']
  · left
    simp only [List.mem_cons, List.not_mem_nil, or_false] at hletter
    rcases hletter with rfl | rfl | rfl | rfl | rfl | rfl | rfl <;>
    exact ⟨_, _, _, rfl, rfl, rfl, rfl⟩
  · right
    simp only [List.mem_cons, List.not_mem_nil, or_false, not_or] at hletter
    rcases hletter with ⟨hquote, hbackslash, hb, ht, hn, hf, hr⟩
    rw [escaped, if_neg hquote, if_neg hbackslash, if_neg hb, if_neg ht, if_neg hn, if_neg hf,
      if_neg hr]
    by_cases hcontrol : c.toNat < 0x20
    · exact .inl ⟨hcontrol, if_pos hcontrol⟩
    · refine .inr ⟨if_neg hcontrol, hquote, hbackslash, fun b hb => ?_⟩
      exact isPlain_of_mem_encode (by omega) hquote hbackslash hb

/-- A digit in base sixteen is one byte, which stands for itself and for the digit. -/
theorem encode_digitChar {d : Nat} (h : d < 16) :
    ∃ b, encode [Nat.digitChar d] = [b] ∧ Text.hexValue? b = some d ∧ IsPlain b := by
  have hall : ∀ d < 16, (Nat.digitChar d).toNat < 0x80 ∧
      Text.hexValue? (UInt8.ofNat (Nat.digitChar d).toNat) = some d ∧
      IsPlain (UInt8.ofNat (Nat.digitChar d).toNat) := by decide
  rcases hall d h with ⟨hascii, hvalue, hplain⟩
  exact ⟨_, encode_ascii hascii, hvalue, hplain⟩

/-! ## Reading it back -/

@[simp]
theorem Feed.ofBytes_append (bytes others : List UInt8) :
    Feed.ofBytes (bytes ++ others) = Feed.ofBytes bytes ++ Feed.ofBytes others :=
  List.map_append

/-- Inside a text the reader takes the characters for the bytes. -/
def Spells (cs : List Char) (bytes : List UInt8) : Prop :=
  ∀ (found : List UInt8) (rest : Feed),
    textBytes .none found (Feed.ofBytes (encode cs) ++ rest) =
      textBytes .none (bytes.reverse ++ found) rest

/-- One step of the reader, away from the closing quote. -/
theorem textBytes_cons {state next : Escape} {b : UInt8} {added : List UInt8}
    (hopen : ¬(state = .none ∧ b = 0x22)) (hstep : state.step b = .ok (next, added))
    (found : List UInt8) (rest : Feed) :
    textBytes state found (some b :: rest) = textBytes next (added.reverse ++ found) rest := by
  rw [textBytes, if_neg hopen, hstep]

theorem Spells.append {cs ds : List Char} {bytes others : List UInt8} (h : Spells cs bytes)
    (h' : Spells ds others) : Spells (cs ++ ds) (bytes ++ others) := by
  intro found rest
  rw [encode_append, Feed.ofBytes_append, List.append_assoc, h, h', List.reverse_append,
    List.append_assoc]

/-- Bytes that stand for themselves are read one by one. -/
theorem textBytes_plain {bytes : List UInt8} (h : ∀ b ∈ bytes, IsPlain b) (found : List UInt8)
    (rest : Feed) :
    textBytes .none found (Feed.ofBytes bytes ++ rest) =
      textBytes .none (bytes.reverse ++ found) rest := by
  induction bytes generalizing found with
  | nil => rfl
  | cons b others ih =>
    rcases h b List.mem_cons_self with ⟨hcode, hquote, hbackslash⟩
    have hprintable : ¬b < 0x20 := by
      rw [UInt8.lt_iff_toNat_lt]
      exact Nat.not_lt_of_ge hcode
    have hstep : Escape.step .none b = .ok (.none, [b]) := by
      rw [Escape.step, if_neg hbackslash, if_neg hprintable]
    have hothers : ∀ b' ∈ others, IsPlain b' := fun b' hb' => h b' (List.mem_cons_of_mem _ hb')
    change textBytes .none found (some b :: (Feed.ofBytes others ++ rest)) = _
    rw [textBytes_cons (fun hclosing => hquote hclosing.2) hstep, ih hothers]
    simp

/-- A backslash and a letter stand for one byte. -/
theorem textBytes_letter {letter meant : UInt8} (h : Escape.letter? letter = some meant)
    (found : List UInt8) (rest : Feed) :
    textBytes .none found (some 0x5C :: some letter :: rest) =
      textBytes .none (meant :: found) rest := by
  have hnotCode : letter ≠ 0x75 := by
    rintro rfl
    cases h
  have hstep : Escape.step .opened letter = .ok (.none, [meant]) := by
    rw [Escape.step, if_neg hnotCode, h]
  rw [textBytes_cons (by decide) (show Escape.step .none 0x5C = .ok (.opened, []) from rfl),
    textBytes_cons (by simp) hstep]
  rfl

/-- A backslash and four digits, the first two of them zeros, stand for the character with the code
that the other two spell. -/
theorem textBytes_code {high low : UInt8} {h l : Nat} (hhigh : Text.hexValue? high = some h)
    (hlow : Text.hexValue? low = some l) (hcode : 16 * h + l < 0x20) (found : List UInt8)
    (rest : Feed) :
    textBytes .none found (some 0x5C :: some 0x75 :: some 0x30 :: some 0x30 :: some high ::
        some low :: rest) =
      textBytes .none ((encode [Char.ofNat (16 * h + l)]).reverse ++ found) rest := by
  have hspelled : Escape.code? [low, high, 0x30, 0x30] = some (16 * h + l) := by
    have hzeros : Escape.code? [0x30, 0x30] = some 0 := rfl
    have hfront : Escape.code? [high, 0x30, 0x30] = some h := by
      rw [Escape.code?, hzeros]
      simp [hhigh]
    rw [Escape.code?, hfront]
    simp [hlow]
  -- A code below U+0020 is no half of a surrogate pair.
  have hfinish : Escape.finish none (16 * h + l) =
      .ok (.none, encode [Char.ofNat (16 * h + l)]) := by
    rw [Escape.finish, if_neg (by omega), if_neg (by omega)]
    simp [encode, Escape.encoded]
  have hlast : Escape.step (.digits none [high, 0x30, 0x30]) low =
      .ok (.none, encode [Char.ofNat (16 * h + l)]) := by
    rw [Escape.step, if_neg (by simp), hspelled]
    exact hfinish
  have hthird : Escape.step (.digits none [0x30, 0x30]) high =
      .ok (.digits none [high, 0x30, 0x30], []) := rfl
  rw [textBytes_cons (by decide) (show Escape.step .none 0x5C = .ok (.opened, []) from rfl),
    textBytes_cons (by decide) (show Escape.step .opened 0x75 = .ok (.digits none [], []) from rfl),
    textBytes_cons (by decide)
      (show Escape.step (.digits none []) 0x30 = .ok (.digits none [0x30], []) from rfl),
    textBytes_cons (by decide)
      (show Escape.step (.digits none [0x30]) 0x30 = .ok (.digits none [0x30, 0x30], []) from rfl),
    textBytes_cons (by simp) hthird, textBytes_cons (by simp) hlast]
  rfl

/-- However a character is written, the reader finds its bytes. -/
theorem spells_escaped (c : Char) : Spells (escaped c) (encode [c]) := by
  intro found rest
  rcases escaped_cases c with ⟨-, b, meant, -, hwritten, hletter, hc⟩ | ⟨hcontrol, hwritten⟩ |
    ⟨hwritten, -, -, hplain⟩
  · rw [hwritten, hc]
    exact textBytes_letter hletter found rest
  · have hhigh : c.toNat / 16 < 16 := by omega
    have hlow : c.toNat % 16 < 16 := by omega
    rcases encode_digitChar hhigh with ⟨high, hhighByte, hhighValue, -⟩
    rcases encode_digitChar hlow with ⟨low, hlowByte, hlowValue, -⟩
    have hcode : 16 * (c.toNat / 16) + c.toNat % 16 = c.toNat := by omega
    have hread := textBytes_code hhighValue hlowValue (by omega) found rest
    have hbytes : encode (escaped c) = [0x5C, 0x75, 0x30, 0x30, high, low] := by
      rw [hwritten]
      change [0x5C, 0x75, 0x30, 0x30] ++ encode [Nat.digitChar (c.toNat / 16),
        Nat.digitChar (c.toNat % 16)] = _
      rw [encode_cons, hhighByte, hlowByte]
      rfl
    rw [hcode, Char.ofNat_toNat] at hread
    rw [hbytes]
    exact hread
  · rw [hwritten]
    exact textBytes_plain hplain found rest

theorem spells_text (cs : List Char) : Spells (cs.flatMap escaped) (encode cs) := by
  induction cs with
  | nil => exact fun found rest => rfl
  | cons c others ih =>
    rw [List.flatMap_cons, encode_cons]
    exact (spells_escaped c).append ih

/-- What stands behind the opening quote of a text that was written, up to the closing one. -/
def inQuotes (s : String) : Feed := Feed.ofBytes (encode (s.toList.flatMap escaped ++ ['"']))

theorem ofBytes_quote (s : String) : Feed.ofBytes (encode (quote s)) = some 0x22 :: inQuotes s := by
  change Feed.ofBytes (encode ('"' :: (s.toList.flatMap escaped ++ ['"']))) = _
  rw [encode_cons]
  rfl

/-- Behind an opening quote the reader finds the text that was written, up to the closing quote. -/
theorem text_inQuotes (s : String) (rest : Feed) : text (inQuotes s ++ rest) = .ok (s, rest) := by
  have hbytes : textBytes .none [] (inQuotes s ++ rest) = .ok (Text.utf8 s, rest) := by
    rw [inQuotes, encode_append, Feed.ofBytes_append, List.append_assoc, spells_text]
    change textBytes .none ((encode s.toList).reverse ++ []) (some 0x22 :: rest) = _
    rw [textBytes, if_pos ⟨rfl, rfl⟩, List.append_nil, List.reverse_reverse, Text.utf8_eq_encode]
  rw [text, hbytes, Outcome.ok_bind]
  simp only [Text.ofUtf8?_utf8]
  rfl

end OpcodeAtlas.Json
