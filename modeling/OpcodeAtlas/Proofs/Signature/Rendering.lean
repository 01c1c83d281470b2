import OpcodeAtlas.Proofs.Signature.Spelling
import OpcodeAtlas.Text.Blank

/-!
# OpcodeAtlas.Proofs.Signature.Rendering — patterns written and read back

A pattern is written with two characters for a place (`charsOf`) and a blank between neighbours.
Without the blanks it is the text of the pattern with upper-case digits:

* `toList_placeText`, `spells_pairOf`, `charsOf_of_spells` — one place, in both directions;
* `toList_strip_render` — all places, with the blanks between them gone;
* `parse_strip_render` — the text that is written is read back as the pattern;
* `strip_render_of_parse` — and of a text that was read the case of the digits alone is lost;
* `render_round_trip` — both directions, and when two texts are one pattern.
-/

namespace OpcodeAtlas.Pattern

open Text (HexDigit encode encode_cons utf8 isBlank)

/-! ## One place -/

/-- The upper-case digit with a value below sixteen. -/
def upperDigit (v : Nat) : Char := (Nat.digitChar v).toUpper

/-- The two characters that a place is written with. -/
def charsOf : Option UInt8 → Char × Char
  | none => ('?', '?')
  | some b => (upperDigit (b.toNat / 16), upperDigit (b.toNat % 16))

/-- The byte of an ASCII character. -/
def byteOf (c : Char) : UInt8 := UInt8.ofNat c.toNat

/-- The ASCII character of a byte. -/
def charOf (b : UInt8) : Char := Char.ofNat b.toNat

/-- The two bytes that a place is written with. -/
def pairOf (place : Option UInt8) : UInt8 × UInt8 :=
  (byteOf (charsOf place).1, byteOf (charsOf place).2)

theorem toList_placeText (place : Option UInt8) :
    (placeText place).toList = [(charsOf place).1, (charsOf place).2] := by
  cases place with
  | none => rfl
  | some b =>
    have hb : b.toNat < 256 := b.toNat_lt
    rw [placeText, charsOf, Text.padLeft, Text.upperHex, String.toList_ofList, String.toList_ofList,
      String.length_ofList, List.length_map]
    -- A number below sixteen has one digit, with a zero to fill up; any other byte has two.
    by_cases hsmall : b.toNat < 16
    · rw [Nat.toDigits_of_lt_base hsmall, Nat.div_eq_of_lt hsmall, Nat.mod_eq_of_lt hsmall]
      rfl
    · have hhigh : b.toNat / 16 < 16 := by omega
      rw [Nat.toDigits_eq_if (by decide), if_neg hsmall, Nat.toDigits_of_lt_base hhigh]
      rfl

/-- The characters that places are written with are marks. -/
theorem charsOf_mem_marks (place : Option UInt8) :
    (charsOf place).1 ∈ marks ∧ (charsOf place).2 ∈ marks := by
  have hdigit : ∀ v < 16, upperDigit v ∈ marks := by decide
  cases place with
  | none => decide
  | some b =>
    have hb : b.toNat < 256 := b.toNat_lt
    exact ⟨hdigit _ (by omega), hdigit _ (by omega)⟩

/-- What is written for a place spells it. -/
theorem spells_pairOf (place : Option UInt8) : Spells (pairOf place) place := by
  have hdigit : ∀ v < 16, Text.hexValue? (byteOf (upperDigit v)) = some v := by decide
  cases place with
  | none => exact .gap
  | some b =>
    have hb : b.toNat < 256 := b.toNat_lt
    exact .byte (Text.hexValue?_eq_some_iff.1 (hdigit _ (by omega)))
      (Text.hexValue?_eq_some_iff.1 (hdigit _ (by omega))) (Nat.div_add_mod _ _).symm

/-- A digit of either case is written in upper case. -/
theorem toUpper_of_hexDigit {b : UInt8} {v : Nat} (h : HexDigit b v) :
    (charOf b).toUpper = upperDigit v := by
  have hdecimal : ∀ d < 10, (Char.ofNat ('0'.toNat + d)).toUpper = upperDigit d := by decide
  have hlower : ∀ d < 6, (Char.ofNat ('a'.toNat + d)).toUpper = upperDigit (d + 10) := by decide
  have hupper : ∀ d < 6, (Char.ofNat ('A'.toNat + d)).toUpper = upperDigit (d + 10) := by decide
  cases h with
  | decimal hd hb =>
    rw [charOf, hb]
    exact hdecimal _ hd
  | lower hd hb =>
    rw [charOf, hb]
    exact hlower _ hd
  | upper hd hb =>
    rw [charOf, hb]
    exact hupper _ hd

/-- A place is written as the pair that spells it, in upper case. -/
theorem charsOf_of_spells {high low : UInt8} {place : Option UInt8}
    (h : Spells (high, low) place) :
    charsOf place = ((charOf high).toUpper, (charOf low).toUpper) := by
  cases h with
  | gap => rfl
  | byte hhigh hlow hb =>
    have hl := hlow.lt
    rw [toUpper_of_hexDigit hhigh, toUpper_of_hexDigit hlow, charsOf]
    congr 2 <;> omega

/-! ## Writing all places -/

/-- Of parts without blanks that are joined by blanks the parts are left. -/
theorem filter_intercalate {parts : List (List Char)}
    (h : ∀ part ∈ parts, ∀ c ∈ part, isBlank c = false) :
    ([' '].intercalate parts).filter (fun c => !isBlank c) = parts.flatten := by
  have hpart : ∀ part ∈ parts, part.filter (fun c => !isBlank c) = part := by
    intro part hmem
    refine List.filter_eq_self.2 fun c hc => ?_
    rw [h part hmem c hc]
    rfl
  induction parts with
  | nil => rfl
  | cons part rest ih =>
    rcases List.forall_mem_cons.1 h with ⟨-, hrest⟩
    rcases List.forall_mem_cons.1 hpart with ⟨hself, hselves⟩
    cases rest with
    | nil => simpa using hself
    | cons next rest =>
      have hgap : [' '].filter (fun c => !isBlank c) = [] := rfl
      rw [List.intercalate_cons_cons, List.filter_append, List.filter_append, hself, hgap,
        List.append_nil, ih hrest hselves]
      rfl

theorem isBlank_of_mem_marks {c : Char} (h : c ∈ marks) : isBlank c = false := by
  have hall : marks.all (fun c => !isBlank c) = true := by decide
  simpa using List.all_eq_true.1 hall c h

/-- Without the blanks between them the characters of the places follow one another. -/
theorem toList_strip_render (p : Pattern) :
    (Text.strip p.render).toList =
      p.places.flatMap fun place => [(charsOf place).1, (charsOf place).2] := by
  have hchars : (p.places.map placeText).map String.toList =
      p.places.map fun place => [(charsOf place).1, (charsOf place).2] := by
    rw [List.map_map]
    exact List.map_congr_left fun place _ => toList_placeText place
  have hblank : " ".toList = [' '] := rfl
  rw [Text.toList_strip, render, String.toList_intercalate, hchars, hblank, filter_intercalate,
    List.flatMap_def]
  intro part hpart c hc
  rcases List.mem_map.1 hpart with ⟨place, -, rfl⟩
  rcases charsOf_mem_marks place with ⟨hhigh, hlow⟩
  simp only [List.mem_cons, List.not_mem_nil, or_false] at hc
  rcases hc with rfl | rfl
  · exact isBlank_of_mem_marks hhigh
  · exact isBlank_of_mem_marks hlow

theorem encode_charsOf (place : Option UInt8) :
    encode [(charsOf place).1, (charsOf place).2] = [(pairOf place).1, (pairOf place).2] := by
  rcases charsOf_mem_marks place with ⟨hhigh, hlow⟩
  rw [encode_cons, Text.encode_ascii (ascii_of_mem_marks hhigh),
    Text.encode_ascii (ascii_of_mem_marks hlow)]
  rfl

/-- So do their bytes. -/
theorem utf8_strip_render (p : Pattern) :
    utf8 (Text.strip p.render) =
      p.places.flatMap fun place => [(pairOf place).1, (pairOf place).2] := by
  rw [Text.utf8_eq_encode, toList_strip_render, encode, List.flatMap_assoc]
  exact List.flatMap_congr fun place _ => encode_charsOf place

/-- Bytes that are made of pairs fall apart into these pairs. -/
theorem pairs_flatMap {α : Type} (f : α → UInt8 × UInt8) (items : List α) :
    pairs (items.flatMap fun item => [(f item).1, (f item).2]) = items.map f := by
  induction items with
  | nil => rfl
  | cons item rest ih =>
    rw [List.flatMap_cons, List.map_cons, ← ih]
    rfl

/-- The text that a pattern is written as, without its blanks, is read as the pattern. -/
theorem parse_strip_render (p : Pattern) : parse (Text.strip p.render) = .ok p := by
  have hlength : (utf8 (Text.strip p.render)).length = 2 * p.places.length := by
    rw [utf8_strip_render, List.length_flatMap]
    simp [Nat.mul_comm]
  rw [parse_eq_ok_iff]
  refine ⟨fun hempty => ?_, by omega, ?_⟩
  · have hpos : 0 < p.places.length := List.length_pos_iff.2 p.places_ne_nil
    rw [utf8_eq_nil_iff.2 hempty, List.length_nil] at hlength
    omega
  · rw [utf8_strip_render, pairs_flatMap, List.forall₂_map_left_iff, List.forall₂_same]
    exact fun place _ => spells_pairOf place

/-! ## Reading all places -/

/-- Pairs without a byte left over make up the bytes. -/
theorem flatMap_pairs {bytes : List UInt8} (h : bytes.length % 2 = 0) :
    ((pairs bytes).flatMap fun pair => [pair.1, pair.2]) = bytes := by
  induction bytes using pairs.induct with
  | case1 => rfl
  | case2 b => cases h
  | case3 high low rest ih =>
    have hrest : rest.length % 2 = 0 := by
      rw [List.length_cons, List.length_cons] at h
      omega
    rw [pairs, List.flatMap_cons, ih hrest]
    rfl

/-- Bytes below 0x80 are the characters with their codes. -/
theorem toList_eq_of_ascii {text : String} (h : ∀ b ∈ utf8 text, b.toNat < 0x80) :
    text.toList = (utf8 text).map charOf := by
  rw [Text.utf8_eq_encode] at h ⊢
  generalize text.toList = cs at h ⊢
  induction cs with
  | nil => rfl
  | cons c rest ih =>
    rw [encode_cons, List.forall_mem_append] at h
    rcases h with ⟨hfirst, hrest⟩
    have hascii : c.toNat < 0x80 := by
      by_contra hnot
      have hle := Nat.not_lt.1 hnot
      have hlength := Text.length_le_encode [c]
      rcases List.exists_mem_of_length_pos hlength with ⟨b, hb⟩
      have := hfirst b hb
      have := Text.le_of_mem_encode hle hb
      omega
    have hcode : (UInt8.ofNat c.toNat).toNat = c.toNat := by
      rw [UInt8.toNat_ofNat']
      omega
    rw [encode_cons, List.map_append, ← ih hrest, Text.encode_ascii hascii, List.map_singleton,
      charOf, hcode, Char.ofNat_toNat]
    rfl

/-- The characters of the places that pairs spell are the characters of the pairs in upper case. -/
theorem flatMap_charsOf {all : List (UInt8 × UInt8)} {places : List (Option UInt8)}
    (h : List.Forall₂ Spells all places) :
    (places.flatMap fun place => [(charsOf place).1, (charsOf place).2]) =
      all.flatMap fun pair => [(charOf pair.1).toUpper, (charOf pair.2).toUpper] := by
  induction h with
  | nil => rfl
  | cons hfirst _ ih => rw [List.flatMap_cons, List.flatMap_cons, ih, charsOf_of_spells hfirst]

/-- A text that is read as a pattern is ASCII. -/
theorem ascii_of_parse {text : String} {p : Pattern} (h : parse text = .ok p) {b : UInt8}
    (hb : b ∈ utf8 text) : b.toNat < 0x80 := by
  rcases exists_parse_iff.1 ⟨p, h⟩ with ⟨-, heven, hall⟩
  rw [← flatMap_pairs heven, List.mem_flatMap] at hb
  rcases hb with ⟨pair, hpair, hb⟩
  rcases hall pair hpair with ⟨place, hspells⟩
  simp only [List.mem_cons, List.not_mem_nil, or_false] at hb
  rcases hspells.mem_marks hb with ⟨c, hc, hcode⟩
  rw [hcode]
  exact ascii_of_mem_marks hc

/-- Of a text that is read as a pattern the pattern keeps all but the case of the digits. -/
theorem strip_render_of_parse {text : String} {p : Pattern} (h : parse text = .ok p) :
    Text.strip p.render = text.toUpper := by
  rcases parse_eq_ok_iff.1 h with ⟨-, heven, hspells⟩
  have htext : text.toList = (pairs (utf8 text)).flatMap
      fun pair => [charOf pair.1, charOf pair.2] := by
    rw [toList_eq_of_ascii fun b => ascii_of_parse h]
    conv_lhs => rw [← flatMap_pairs heven, List.map_flatMap]
    rfl
  rw [← String.toList_inj, toList_strip_render, flatMap_charsOf hspells, String.toUpper,
    String.toList_map, htext, List.map_flatMap]
  rfl

/-! ## Both directions -/

/-- What is written for places that are not none is read as the pattern of these places. What is
written for a pattern that was read is its text in upper case, so that two texts are read as one
pattern exactly if they differ in nothing but case. -/
theorem render_round_trip :
    (∀ places : List (Option UInt8), places ≠ [] → ∃ p, ofPlaces places = .ok p ∧
      p.places = places ∧ parse (Text.strip p.render) = .ok p) ∧
    (∀ text p, parse text = .ok p → Text.strip p.render = text.toUpper) ∧
    ∀ text other p q, parse text = .ok p → parse other = .ok q →
      (p = q ↔ text.toUpper = other.toUpper) := by
  refine ⟨fun places hne => ?_, fun text p hp => strip_render_of_parse hp,
    fun text other p q hp hq => ?_⟩
  · exact ⟨⟨places, hne⟩, dif_neg hne, rfl, parse_strip_render _⟩
  · rw [← strip_render_of_parse hp, ← strip_render_of_parse hq]
    constructor
    · rintro rfl
      rfl
    · intro heq
      have hread := parse_strip_render p
      rw [heq, parse_strip_render q] at hread
      exact (Except.ok.inj hread).symm

example : (parse "48??8bC0").map render = .ok "48 ?? 8B C0" := by
  decide

end OpcodeAtlas.Pattern
