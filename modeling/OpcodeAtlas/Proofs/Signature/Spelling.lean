import OpcodeAtlas.Proofs.Outcome
import OpcodeAtlas.Proofs.Text.Encoding
import OpcodeAtlas.Signature.Pattern
import OpcodeAtlas.Text.Hex

/-!
# OpcodeAtlas.Proofs.Signature.Spelling — the grammar of pattern texts

The text of a pattern is taken apart into pairs of bytes (`pairs`), each of which has to spell a
place (`Spells`): two digits of either case (`Text.HexDigit`) spell a byte, two question marks a
gap.

* `placeOfPair?_eq_some_iff` — what one pair spells;
* `placesOfPairs_eq_ok_iff`, `placesOfPairs_eq_error_iff` — by induction, what all pairs spell, and
  the first one that spells nothing;
* `Spells.mem_marks` — no other character takes part in a pair that spells something, nor does a
  piece of one;
* `parse_grammar` — which texts are accepted, as what, and what is wrong with the others.
-/

namespace OpcodeAtlas

/-! ## Digits -/

/-- The byte is the digit with this value in base sixteen, in either case. -/
inductive Text.HexDigit (b : UInt8) : Nat → Prop
  | decimal {d : Nat} (hd : d < 10) (hb : b.toNat = '0'.toNat + d) : HexDigit b d
  | lower {d : Nat} (hd : d < 6) (hb : b.toNat = 'a'.toNat + d) : HexDigit b (d + 10)
  | upper {d : Nat} (hd : d < 6) (hb : b.toNat = 'A'.toNat + d) : HexDigit b (d + 10)

theorem Text.HexDigit.lt {b : UInt8} {v : Nat} (h : HexDigit b v) : v < 16 := by
  cases h <;> omega

theorem Text.hexValue?_eq_some_iff {b : UInt8} {v : Nat} :
    hexValue? b = some v ↔ HexDigit b v := by
  have hzero : '0'.toNat = 0x30 := rfl
  have hlower : 'a'.toNat = 0x61 := rfl
  have hupper : 'A'.toNat = 0x41 := rfl
  simp only [hexValue?, UInt8.le_iff_toNat_le, UInt8.reduceToNat]
  constructor
  · intro h
    split at h
    · cases h
      exact .decimal (by omega) (by omega)
    · split at h
      · cases h
        exact .lower (by omega) (by omega)
      · split at h
        · cases h
          exact .upper (by omega) (by omega)
        · cases h
  · intro h
    cases h with
    | decimal hd hb =>
      rw [if_pos (by omega), Option.some.injEq]
      omega
    | lower hd hb =>
      rw [if_neg (by omega), if_pos (by omega), Option.some.injEq]
      omega
    | upper hd hb =>
      rw [if_neg (by omega), if_neg (by omega), if_pos (by omega), Option.some.injEq]
      omega

namespace Pattern

open Text (HexDigit encode utf8)

/-! ## Pairs -/

/-- The consecutive pairs of bytes; a byte that is left over belongs to none. -/
def pairs : List UInt8 → List (UInt8 × UInt8)
  | [] => []
  | [_] => []
  | high :: low :: rest => (high, low) :: pairs rest

/-- What a pair of bytes spells: two question marks a gap, two digits a byte. -/
inductive Spells : UInt8 × UInt8 → Option UInt8 → Prop
  | gap : Spells (0x3F, 0x3F) none
  | byte {high low b : UInt8} {h l : Nat} (hhigh : HexDigit high h) (hlow : HexDigit low l)
      (hb : b.toNat = 16 * h + l) : Spells (high, low) (some b)

/-- The pair of bytes spells a place. -/
def Spellable (pair : UInt8 × UInt8) : Prop := ∃ place, Spells pair place

theorem placeOfPair?_eq_some_iff {high low : UInt8} {place : Option UInt8} :
    placeOfPair? high low = some place ↔ Spells (high, low) place := by
  unfold placeOfPair?
  by_cases hgap : high = 0x3F ∧ low = 0x3F
  · rcases hgap with ⟨rfl, rfl⟩
    rw [if_pos ⟨rfl, rfl⟩]
    constructor
    · rintro ⟨⟩
      exact .gap
    · intro h
      cases h with
      | gap => rfl
      | byte hhigh =>
        -- A question mark is no digit.
        rw [← Text.hexValue?_eq_some_iff] at hhigh
        cases hhigh
  · rw [if_neg hgap]
    simp only [Option.bind_eq_bind, Option.bind_eq_some_iff, Text.hexValue?_eq_some_iff,
      Option.pure_def, Option.some.injEq]
    constructor
    · rintro ⟨h, hhigh, l, hlow, rfl⟩
      have hh := hhigh.lt
      have hl := hlow.lt
      refine .byte hhigh hlow ?_
      rw [UInt8.toNat_ofNat']
      omega
    · intro h
      cases h with
      | gap => exact absurd ⟨rfl, rfl⟩ hgap
      | byte hhigh hlow hb =>
        refine ⟨_, hhigh, _, hlow, ?_⟩
        rw [← hb, UInt8.ofNat_toNat]

theorem placeOfPair?_eq_none_iff {high low : UInt8} :
    placeOfPair? high low = none ↔ ¬Spellable (high, low) := by
  simp only [Option.eq_none_iff_forall_ne_some, ne_eq, placeOfPair?_eq_some_iff, Spellable,
    not_exists]

/-- A pair spells at most one place. -/
theorem Spells.unique {high low : UInt8} {place other : Option UInt8}
    (h : Spells (high, low) place) (hother : Spells (high, low) other) : place = other := by
  rw [← placeOfPair?_eq_some_iff] at h hother
  exact Option.some.inj (h.symm.trans hother)

/-! ## All pairs -/

section AllPairs

variable {index : Nat} {bytes : List UInt8}

theorem length_pairs : (pairs bytes).length = bytes.length / 2 := by
  induction bytes using pairs.induct with
  | case1 => rfl
  | case2 b => rw [pairs, List.length_nil, List.length_singleton]
  | case3 high low rest ih =>
    rw [pairs, List.length_cons, ih, List.length_cons, List.length_cons]
    omega

/-- Pairs are read as places, one by one, when they spell them. -/
theorem placesOfPairs_eq_ok_iff {places : List (Option UInt8)} :
    placesOfPairs index bytes = .ok places ↔ List.Forall₂ Spells (pairs bytes) places := by
  have hnone : ∀ places, (Except.ok [] : Except PatternError _) = .ok places ↔
      List.Forall₂ Spells [] places := by
    intro places
    rw [List.forall₂_nil_left_iff, Except.ok.injEq, eq_comm]
  induction bytes using pairs.induct generalizing index places with
  | case1 => exact hnone places
  | case2 b => exact hnone places
  | case3 high low rest ih =>
    rw [placesOfPairs, pairs, List.forall₂_cons_left_iff]
    cases hplace : placeOfPair? high low with
    | none =>
      constructor
      · rintro ⟨⟩
      · rintro ⟨place, others, hspells, -⟩
        exact absurd ⟨place, hspells⟩ (placeOfPair?_eq_none_iff.1 hplace)
    | some place =>
      rw [placeOfPair?_eq_some_iff] at hplace
      simp only [Outcome.map_eq_ok, ih]
      constructor
      · rintro ⟨others, hothers, rfl⟩
        exact ⟨place, others, hplace, hothers, rfl⟩
      · rintro ⟨first, others, hfirst, hothers, rfl⟩
        rw [hplace.unique hfirst]
        exact ⟨others, hothers, rfl⟩

/-- Otherwise the first pair that spells nothing is the fault. -/
theorem placesOfPairs_eq_error_iff {e : PatternError} :
    placesOfPairs index bytes = .error e ↔ ∃ i pair, (pairs bytes)[i]? = some pair ∧
      (∀ other ∈ (pairs bytes).take i, Spellable other) ∧ ¬Spellable pair ∧
      e = .invalidToken (index + i) (Text.lenientText [pair.1, pair.2]) := by
  induction bytes using pairs.induct generalizing index with
  | case1 => simp [placesOfPairs, pairs]
  | case2 b => simp [placesOfPairs, pairs]
  | case3 high low rest ih =>
    rw [placesOfPairs, pairs]
    cases hplace : placeOfPair? high low with
    | none =>
      have hbad := placeOfPair?_eq_none_iff.1 hplace
      constructor
      · rintro ⟨⟩
        exact ⟨0, (high, low), rfl, by simp, hbad, rfl⟩
      · rintro ⟨i, pair, hpair, hbefore, -, rfl⟩
        cases i with
        | zero =>
          cases hpair
          rfl
        | succ i => exact absurd (hbefore _ List.mem_cons_self) hbad
    | some place =>
      rw [placeOfPair?_eq_some_iff] at hplace
      have hfirst : Spellable (high, low) := ⟨place, hplace⟩
      rw [← Outcome.fault?_eq_some_iff, Outcome.fault?_map, Outcome.fault?_eq_some_iff, ih]
      constructor
      · rintro ⟨i, pair, hpair, hbefore, hbad, rfl⟩
        refine ⟨i + 1, pair, hpair, List.forall_mem_cons.2 ⟨hfirst, hbefore⟩, hbad, ?_⟩
        rw [Nat.add_assoc, Nat.add_comm 1 i]
      · rintro ⟨i, pair, hpair, hbefore, hbad, rfl⟩
        cases i with
        | zero =>
          cases hpair
          exact absurd hfirst hbad
        | succ i =>
          refine ⟨i, pair, hpair, (List.forall_mem_cons.1 hbefore).2, hbad, ?_⟩
          rw [Nat.add_assoc, Nat.add_comm 1 i]

end AllPairs

/-! ## Texts -/

section Texts

variable {text : String} {p : Pattern}

theorem utf8_eq_nil_iff : utf8 text = [] ↔ text = "" := by
  constructor
  · intro h
    have hlength := Text.length_le_encode text.toList
    rw [← Text.utf8_eq_encode, h, List.length_nil] at hlength
    rw [← String.toList_inj, String.toList_empty]
    exact List.eq_nil_of_length_eq_zero (Nat.le_zero.1 hlength)
  · rintro rfl
    rfl

/-- A text without a byte left over is read pair by pair. -/
theorem parse_of_even (hne : text ≠ "") (heven : (utf8 text).length % 2 = 0) :
    parse text = placesOfPairs 0 (utf8 text) >>= ofPlaces := by
  rw [parse, if_neg (mt utf8_eq_nil_iff.1 hne), if_neg (not_not.2 heven)]
  rfl

theorem parse_of_odd (hodd : (utf8 text).length % 2 = 1) :
    parse text = .error (.oddLength (utf8 text).length) := by
  have hne : utf8 text ≠ [] := by
    intro hnil
    rw [hnil] at hodd
    cases hodd
  have hleft : (utf8 text).length % 2 ≠ 0 := by omega
  rw [parse, if_neg hne, if_pos hleft]

/-- A text is read as a pattern when its pairs, at least one and with no byte left over, spell the
places of the pattern. -/
theorem parse_eq_ok_iff :
    parse text = .ok p ↔ text ≠ "" ∧ (utf8 text).length % 2 = 0 ∧
      List.Forall₂ Spells (pairs (utf8 text)) p.places := by
  by_cases hempty : text = ""
  · subst hempty
    exact ⟨nofun, fun h => absurd rfl h.1⟩
  rcases Nat.mod_two_eq_zero_or_one (utf8 text).length with heven | hodd
  · rw [parse_of_even hempty heven]
    simp only [Outcome.bind_eq_ok, placesOfPairs_eq_ok_iff, ofPlaces]
    constructor
    · rintro ⟨places, hspells, hplaces⟩
      split at hplaces
      · cases hplaces
      · cases hplaces
        exact ⟨hempty, heven, hspells⟩
    · rintro ⟨-, -, hspells⟩
      exact ⟨p.places, hspells, dif_neg p.places_ne_nil⟩
  · rw [parse_of_odd hodd]
    exact ⟨nofun, fun h => by omega⟩

/-- Otherwise the text is empty, or has a byte left over, or a first pair that spells nothing. -/
theorem parse_eq_error_iff {e : PatternError} :
    parse text = .error e ↔ text = "" ∧ e = .empty ∨
      (utf8 text).length % 2 = 1 ∧ e = .oddLength (utf8 text).length ∨
      (utf8 text).length % 2 = 0 ∧ ∃ i pair, (pairs (utf8 text))[i]? = some pair ∧
        (∀ other ∈ (pairs (utf8 text)).take i, Spellable other) ∧ ¬Spellable pair ∧
        e = .invalidToken i (Text.lenientText [pair.1, pair.2]) := by
  by_cases hempty : text = ""
  · subst hempty
    have hnil : pairs (utf8 "") = [] := rfl
    have hparse : parse "" = .error .empty := rfl
    rw [hparse, hnil]
    simp [eq_comm, utf8_eq_nil_iff.2]
  rcases Nat.mod_two_eq_zero_or_one (utf8 text).length with heven | hodd
  · rw [parse_of_even hempty heven, Outcome.bind_eq_error, placesOfPairs_eq_error_iff]
    simp only [hempty, heven, Nat.zero_add, false_and, false_or, Nat.zero_ne_one, true_and,
      or_iff_left_iff_imp]
    -- There is a pair, and so a place to make a pattern of.
    rintro ⟨places, hplaces, hfault⟩
    have hlength := (placesOfPairs_eq_ok_iff.1 hplaces).length_eq
    have hpos : 0 < (utf8 text).length := List.length_pos_iff.2 (mt utf8_eq_nil_iff.1 hempty)
    have hne : places ≠ [] := by
      rintro rfl
      rw [length_pairs, List.length_nil] at hlength
      omega
    rw [ofPlaces, dif_neg hne] at hfault
    cases hfault
  · rw [parse_of_odd hodd]
    simp [hempty, hodd, eq_comm]

/-- A text that is neither empty nor odd is a pattern when all of its pairs spell places. -/
theorem exists_parse_iff :
    (∃ p, parse text = .ok p) ↔ text ≠ "" ∧ (utf8 text).length % 2 = 0 ∧
      ∀ pair ∈ pairs (utf8 text), Spellable pair := by
  constructor
  · rintro ⟨p, hp⟩
    rcases parse_eq_ok_iff.1 hp with ⟨hne, heven, hspells⟩
    have hboth : List.Forall₂ (fun pair place => Spellable pair ∧ Spells pair place)
        (pairs (utf8 text)) p.places :=
      hspells.imp fun pair place hplace => ⟨⟨place, hplace⟩, hplace⟩
    exact ⟨hne, heven, ((List.forall₂_and_left _ _).1 hboth).1⟩
  · rintro ⟨hne, heven, hall⟩
    cases hparse : parse text with
    | ok p => exact ⟨p, rfl⟩
    | error e =>
      -- None of the three faults is there.
      rcases parse_eq_error_iff.1 hparse with
        ⟨hempty, -⟩ | ⟨hodd, -⟩ | ⟨-, i, pair, hpair, -, hbad, -⟩
      · exact absurd hempty hne
      · omega
      · exact absurd (hall pair (List.mem_of_getElem? hpair)) hbad

end Texts

/-! ## Other characters -/

/-- The characters that spell places: the digits of either case and the question mark. -/
def marks : List Char :=
  ['0', '1', '2', '3', '4', '5', '6', '7', '8', '9', 'a', 'b', 'c', 'd', 'e', 'f', 'A', 'B', 'C',
    'D', 'E', 'F', '?']

theorem ascii_of_mem_marks {c : Char} (h : c ∈ marks) : c.toNat < 0x80 := by
  have hall : marks.all (fun c => c.toNat < 0x80) = true := by decide
  exact of_decide_eq_true (List.all_eq_true.1 hall c h)

theorem mem_marks_of_hexDigit {b : UInt8} {v : Nat} (h : HexDigit b v) :
    ∃ c ∈ marks, b.toNat = c.toNat := by
  have hdecimal : ∀ d < 10, marks.any (fun c => '0'.toNat + d == c.toNat) = true := by decide
  have hlower : ∀ d < 6, marks.any (fun c => 'a'.toNat + d == c.toNat) = true := by decide
  have hupper : ∀ d < 6, marks.any (fun c => 'A'.toNat + d == c.toNat) = true := by decide
  have hany : marks.any (fun c => b.toNat == c.toNat) = true := by
    cases h with
    | decimal hd hb =>
      rw [hb]
      exact hdecimal _ hd
    | lower hd hb =>
      rw [hb]
      exact hlower _ hd
    | upper hd hb =>
      rw [hb]
      exact hupper _ hd
  rcases List.any_eq_true.1 hany with ⟨c, hc, heq⟩
  exact ⟨c, hc, beq_iff_eq.1 heq⟩

/-- Both bytes of a pair that spells a place are marks. -/
theorem Spells.mem_marks {high low : UInt8} {place : Option UInt8}
    (h : Spells (high, low) place) {b : UInt8} (hb : b = high ∨ b = low) :
    ∃ c ∈ marks, b.toNat = c.toNat := by
  cases h with
  | gap =>
    rcases hb with rfl | rfl <;> exact ⟨'?', by decide, rfl⟩
  | byte hhigh hlow =>
    rcases hb with rfl | rfl
    · exact mem_marks_of_hexDigit hhigh
    · exact mem_marks_of_hexDigit hlow

/-- A byte of a character that stands for a mark is the whole of that character. -/
theorem mem_marks_of_mem_encode {b : UInt8} {c d : Char} (hc : c ∈ marks)
    (hb : b.toNat = c.toNat) (hd : b ∈ encode [d]) : d ∈ marks := by
  have hlow : d.toNat < 0x80 := by
    by_contra hnot
    have hle := Text.le_of_mem_encode (Nat.not_lt.1 hnot) hd
    have hlt := ascii_of_mem_marks hc
    omega
  rw [Text.encode_ascii hlow, List.mem_singleton] at hd
  have heq : d.toNat = c.toNat := by
    rw [← hb, hd, UInt8.toNat_ofNat']
    omega
  rw [Char.toNat_inj.1 heq]
  exact hc

/-- A pair with a byte of any other character spells no place. -/
theorem not_spellable_of_mem_encode {high low : UInt8} {c : Char} (hc : c ∉ marks)
    (h : high ∈ encode [c] ∨ low ∈ encode [c]) : ¬Spellable (high, low) := by
  rintro ⟨place, hspells⟩
  rcases h with h | h
  · rcases hspells.mem_marks (.inl rfl) with ⟨d, hd, hb⟩
    exact hc (mem_marks_of_mem_encode hd hb h)
  · rcases hspells.mem_marks (.inr rfl) with ⟨d, hd, hb⟩
    exact hc (mem_marks_of_mem_encode hd hb h)

/-- Nor does one question mark alone. -/
theorem not_spellable_of_single {high low : UInt8} (h : ¬(high = 0x3F ↔ low = 0x3F)) :
    ¬Spellable (high, low) := by
  rintro ⟨place, hspells⟩
  cases hspells with
  | gap => exact h Iff.rfl
  | byte hhigh hlow =>
    have hmark : ∀ {b v}, HexDigit b v → b ≠ 0x3F := by
      rintro b v hb rfl
      rw [← Text.hexValue?_eq_some_iff] at hb
      cases hb
    exact h (iff_of_false (hmark hhigh) (hmark hlow))

/-! ## The grammar -/

/-- A text is accepted exactly if it is not empty, has no byte left over and spells a place with
each of its pairs; the pattern has those places. Of a text that is refused it is said that it is
empty, or else that it has a byte left over, or else which pair is the first to spell nothing: any
with a byte of another character, or with one question mark, does so. -/
theorem parse_grammar (text : String) :
    ((∃ p, parse text = .ok p) ↔ text ≠ "" ∧ (utf8 text).length % 2 = 0 ∧
      ∀ pair ∈ pairs (utf8 text), Spellable pair) ∧
    (∀ p, parse text = .ok p ↔ text ≠ "" ∧ (utf8 text).length % 2 = 0 ∧
      List.Forall₂ Spells (pairs (utf8 text)) p.places) ∧
    (parse text = .error .empty ↔ text = "") ∧
    (∀ n, parse text = .error (.oddLength n) ↔ (utf8 text).length = n ∧ n % 2 = 1) ∧
    (∀ i token, parse text = .error (.invalidToken i token) ↔ (utf8 text).length % 2 = 0 ∧
      ∃ pair, (pairs (utf8 text))[i]? = some pair ∧
        (∀ other ∈ (pairs (utf8 text)).take i, Spellable other) ∧ ¬Spellable pair ∧
        token = Text.lenientText [pair.1, pair.2]) ∧
    (∀ high low, (∃ c ∉ marks, high ∈ encode [c] ∨ low ∈ encode [c]) ∨
      ¬(high = 0x3F ↔ low = 0x3F) → ¬Spellable (high, low)) := by
  refine ⟨exists_parse_iff, fun p => parse_eq_ok_iff, ?_, fun n => ?_,
    fun i token => ?_, fun high low h => ?_⟩
  · simp [parse_eq_error_iff]
  · rw [parse_eq_error_iff]
    simp only [reduceCtorEq, and_false, PatternError.oddLength.injEq, false_or, exists_false,
      or_false]
    constructor
    · rintro ⟨hodd, rfl⟩
      exact ⟨rfl, hodd⟩
    · rintro ⟨rfl, hodd⟩
      exact ⟨hodd, rfl⟩
  · rw [parse_eq_error_iff]
    simp only [reduceCtorEq, and_false, PatternError.invalidToken.injEq, false_or]
    constructor
    · rintro ⟨heven, j, pair, hpair, hbefore, hbad, rfl, rfl⟩
      exact ⟨heven, pair, hpair, hbefore, hbad, rfl⟩
    · rintro ⟨heven, pair, hpair, hbefore, hbad, rfl⟩
      exact ⟨heven, i, pair, hpair, hbefore, hbad, rfl, rfl⟩
  · rcases h with ⟨c, hc, hmem⟩ | hsingle
    · exact not_spellable_of_mem_encode hc hmem
    · exact not_spellable_of_single hsingle

end Pattern

end OpcodeAtlas
