import Mathlib.Data.List.Find
import OpcodeAtlas.Container.Basic
import OpcodeAtlas.Image.Offset

/-!
# OpcodeAtlas.Proofs.Container.SectionLookup — which section holds an offset

Headers come from the file, so nothing is known of what they say: sections overlap, are empty, or end
past the largest offset. A section holds the offsets of an exact interval (`Section.Spans`), and of
several sections that hold an offset the first one counts (`Container.FirstSpanning`):

* `Section.contains_iff_spans` — the test that subtracts decides the exact interval;
* `Section.containsWord_eq` — on words of 64 bits, where numbers wrap around, it is the same test;
* `Container.sectionAt_eq_some_iff`, `Container.sectionAt_eq_none_iff` — what a look-up finds;
* `Container.sectionAt_first` — both, with the distance that a message shows.
-/

namespace OpcodeAtlas

/-! ## One section -/

namespace Section

variable {s : Section} {offset : Nat}

/-- The offset lies in the section. The end of the section is an exact sum and need not be an
offset. -/
def Spans (s : Section) (offset : Nat) : Prop :=
  s.offset ≤ offset ∧ offset < s.offset + s.size

instance (s : Section) (offset : Nat) : Decidable (s.Spans offset) :=
  inferInstanceAs (Decidable (_ ∧ _))

theorem contains_iff_spans : s.contains offset = true ↔ s.Spans offset := by
  unfold contains Spans
  rw [Bool.and_eq_true, decide_eq_true_iff, decide_eq_true_iff]
  omega

/-- What an offset inside a section is away from its start is less than the size of the section. -/
theorem Spans.exists_distance (h : s.Spans offset) :
    ∃ distance < s.size, s.offset + distance = offset := by
  rcases h with ⟨hstart, hend⟩
  refine ⟨offset - s.offset, ?_, ?_⟩ <;> omega

/-- The numbers of the section are words of 64 bits, as they are in every header. -/
def InWords (s : Section) : Prop := s.offset < Offset.limit ∧ s.size < Offset.limit

instance (s : Section) : Decidable s.InWords := inferInstanceAs (Decidable (_ ∧ _))

/-- The test of a section on words of 64 bits, which wrap around. -/
def containsWord (s : Section) (word : UInt64) : Bool :=
  UInt64.ofNat s.offset ≤ word && word - UInt64.ofNat s.offset < UInt64.ofNat s.size

/-- As long as the word is not in front of the section, subtracting its start is exact. -/
theorem InWords.toNat_sub (h : s.InWords) {word : UInt64} (hstart : s.offset ≤ word.toNat) :
    (word - UInt64.ofNat s.offset).toNat = word.toNat - s.offset := by
  have hoffset : (UInt64.ofNat s.offset).toNat = s.offset := UInt64.toNat_ofNat_of_lt' h.1
  have hle : UInt64.ofNat s.offset ≤ word := by
    rw [UInt64.le_iff_toNat_le, hoffset]
    exact hstart
  rw [UInt64.toNat_sub_of_le _ _ hle, hoffset]

/-- On words the test is the exact one, as it does not subtract before it has compared. -/
theorem containsWord_eq (h : s.InWords) (word : UInt64) :
    s.containsWord word = s.contains word.toNat := by
  have hoffset : (UInt64.ofNat s.offset).toNat = s.offset := UInt64.toNat_ofNat_of_lt' h.1
  have hsize : (UInt64.ofNat s.size).toNat = s.size := UInt64.toNat_ofNat_of_lt' h.2
  rw [Bool.eq_iff_iff, containsWord, contains]
  simp only [Bool.and_eq_true, decide_eq_true_eq, UInt64.le_iff_toNat_le, UInt64.lt_iff_toNat_lt,
    hoffset, hsize]
  apply and_congr_right
  intro hstart
  rw [h.toNat_sub hstart]

end Section

/-! ## The sections of a container -/

namespace Container

variable {c : Container} {offset : Nat} {s : Section}

/-- The section is the first one in file order that holds the offset. -/
def FirstSpanning (c : Container) (offset : Nat) (s : Section) : Prop :=
  ∃ front back, c.sections = front ++ s :: back ∧ s.Spans offset ∧
    ∀ s' ∈ front, ¬s'.Spans offset

theorem sectionAt_eq_some_iff : c.sectionAt offset = some s ↔ c.FirstSpanning offset s := by
  unfold sectionAt FirstSpanning
  rw [List.find?_eq_some_iff_append, Section.contains_iff_spans]
  constructor
  · intro h
    rcases h with ⟨hspans, front, back, hsections, hfront⟩
    refine ⟨front, back, hsections, hspans, ?_⟩
    intro s' hs' hspans'
    have hcontains := hfront s' hs'
    rw [Section.contains_iff_spans.2 hspans'] at hcontains
    cases hcontains
  · intro h
    rcases h with ⟨front, back, hsections, hspans, hfront⟩
    refine ⟨hspans, front, back, hsections, ?_⟩
    intro s' hs'
    rw [Bool.not_eq_true', ← Bool.not_eq_true, Section.contains_iff_spans]
    exact hfront s' hs'

theorem sectionAt_eq_none_iff :
    c.sectionAt offset = none ↔ ∀ s ∈ c.sections, ¬s.Spans offset := by
  unfold sectionAt
  rw [List.find?_eq_none]
  simp only [Section.contains_iff_spans]

/-- On words of 64 bits the look-up finds the same section. -/
theorem find?_containsWord (h : ∀ s ∈ c.sections, s.InWords) (word : UInt64) :
    c.sections.find? (·.containsWord word) = c.sectionAt word.toNat := by
  unfold sectionAt
  apply List.find?_congr
  intro s hs
  exact Section.containsWord_eq (h s hs) word

/-- Whatever the sections are, a look-up finds the first one in file order whose exact interval holds
the offset, and nothing if there is none. A message shows the exact distance from the start of that
section, which is less than its size. Words of 64 bits find the same section, and the distance does
not wrap around in them. -/
theorem sectionAt_first (c : Container) (offset : Nat) :
    (∀ s, c.sectionAt offset = some s ↔ c.FirstSpanning offset s) ∧
    (c.sectionAt offset = none ↔ ∀ s ∈ c.sections, ¬s.Spans offset) ∧
    (∀ s, c.FirstSpanning offset s → ∃ distance < s.size, s.offset + distance = offset ∧
      c.describe offset =
        s!"0x{Text.lowerHex offset} ({c.format.name} {s.name}+0x{Text.lowerHex distance})") ∧
    ((∀ s ∈ c.sections, ¬s.Spans offset) →
      c.describe offset = s!"0x{Text.lowerHex offset} ({c.format.name})") ∧
    ∀ word : UInt64, word.toNat = offset → (∀ s ∈ c.sections, s.InWords) →
      c.sections.find? (·.containsWord word) = c.sectionAt offset ∧
      ∀ s, c.sectionAt offset = some s →
        s.offset + (word - UInt64.ofNat s.offset).toNat = offset := by
  refine ⟨fun s => sectionAt_eq_some_iff, sectionAt_eq_none_iff, ?_, ?_, ?_⟩
  · intro s hfirst
    have hfound := sectionAt_eq_some_iff.2 hfirst
    rcases hfirst with ⟨-, -, -, hspans, -⟩
    rcases hspans.exists_distance with ⟨distance, hless, hdistance⟩
    have hexact : offset - s.offset = distance := by omega
    refine ⟨distance, hless, hdistance, ?_⟩
    rw [describe, hfound, ← hexact]
  · intro hnone
    rw [describe, sectionAt_eq_none_iff.2 hnone]
  · intro word hword hwords
    subst hword
    refine ⟨find?_containsWord hwords word, ?_⟩
    intro s hfound
    have hmem : s ∈ c.sections := List.mem_of_find?_eq_some hfound
    have hstart : s.offset ≤ word.toNat := by
      rcases sectionAt_eq_some_iff.1 hfound with ⟨-, -, -, hspans, -⟩
      exact hspans.1
    rw [(hwords s hmem).toNat_sub hstart]
    omega

/-- Sections of which one is empty and the other two overlap. The second one starts 15 bytes in front
of the largest offset and is longer than that: in words its start and its size add up to 16. -/
def overlapping : Container :=
  ⟨.pe, [⟨".bss", 0xFFFFFFFFFFFFFFF0, 0⟩, ⟨".text", 0xFFFFFFFFFFFFFFF0, 0x20⟩,
    ⟨".rsrc", 0x400, 0xFFFFFFFFFFFFFFFF⟩]⟩

/-- At the largest offset the empty section is passed by, and the one behind it is found, by words
as well. -/
theorem sectionAt_first_overlapping :
    overlapping.sectionAt 0xFFFFFFFFFFFFFFFF = some ⟨".text", 0xFFFFFFFFFFFFFFF0, 0x20⟩ ∧
    overlapping.sections.find? (·.containsWord 0xFFFFFFFFFFFFFFFF) =
      some ⟨".text", 0xFFFFFFFFFFFFFFF0, 0x20⟩ ∧
    overlapping.describe 0xFFFFFFFFFFFFFFFF = "0xffffffffffffffff (PE .text+0xf)" := by
  rcases sectionAt_first overlapping 0xFFFFFFFFFFFFFFFF with ⟨hiff, -, hshown, -, hwords⟩
  have hfirst : overlapping.FirstSpanning 0xFFFFFFFFFFFFFFFF
      ⟨".text", 0xFFFFFFFFFFFFFFF0, 0x20⟩ :=
    ⟨[⟨".bss", 0xFFFFFFFFFFFFFFF0, 0⟩], [⟨".rsrc", 0x400, 0xFFFFFFFFFFFFFFFF⟩], rfl, by decide,
      by decide⟩
  have hfound := (hiff _).2 hfirst
  refine ⟨hfound, ?_, ?_⟩
  · have hsame := (hwords 0xFFFFFFFFFFFFFFFF rfl (by decide)).1
    exact hsame.trans hfound
  · rcases hshown _ hfirst with ⟨distance, -, hdistance, htext⟩
    obtain rfl : distance = 15 := by
      have hsum : 0xFFFFFFFFFFFFFFF0 + distance = 0xFFFFFFFFFFFFFFFF := hdistance
      omega
    rw [htext]
    rfl

end Container

end OpcodeAtlas
