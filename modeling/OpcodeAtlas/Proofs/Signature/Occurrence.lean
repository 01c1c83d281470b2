import Mathlib.Data.List.Dedup
import Mathlib.Data.Set.Card
import OpcodeAtlas.Proofs.Image.Window
import OpcodeAtlas.Signature.Scan

/-!
# OpcodeAtlas.Proofs.Signature.Occurrence — the scan finds every occurrence

A pattern stands at an offset when all of it lies in the image and every place is a gap or agrees
with the byte there (`StandsAt`). The scan sorts out most offsets by one byte, the anchor; it loses
nothing by that:

* `matchesAt_iff` — the comparison at one offset decides `StandsAt`;
* `scan_eq_filter` — with or without an anchor, the scan is the filter of all offsets with room;
* `scan_exact` — the scan lists the occurrences and nothing else, ascending, and every byte that it
  looks at lies in the image; `findUnique` finds the only occurrence or counts them.
-/

namespace OpcodeAtlas.Pattern

variable {p : Pattern} {image : Image}

/-- The pattern stands at an offset: it ends inside the image, and each of its places is a gap or
is the byte at its distance from the offset. -/
def StandsAt (p : Pattern) (image : Image) (offset : Nat) : Prop :=
  offset + p.length ≤ image.size ∧
    ∀ i place, p.places[i]? = some place → place = none ∨ image.byte? (offset + i) = place

/-! ## One offset -/

/-- Each place is compared with the byte at its distance from the offset; a gap only asks that
there be one. -/
theorem placesMatchAt_iff {places : List (Option UInt8)} {offset : Nat} :
    placesMatchAt image places offset = true ↔
      ∀ i place, places[i]? = some place →
        offset + i < image.size ∧ (place = none ∨ image.byte? (offset + i) = place) := by
  induction places generalizing offset with
  | nil => simp [placesMatchAt]
  | cons first rest ih =>
    -- The first place stands at index 0, and the rest one byte further on.
    have hsplit : (∀ i place, (first :: rest)[i]? = some place →
          offset + i < image.size ∧ (place = none ∨ image.byte? (offset + i) = place)) ↔
        (offset < image.size ∧ (first = none ∨ image.byte? offset = first)) ∧
          placesMatchAt image rest (offset + 1) = true := by
      rw [ih]
      constructor
      · intro h
        refine ⟨by simpa using h 0 first rfl, fun i place hi => ?_⟩
        have hstep := h (i + 1) place (by simpa using hi)
        rwa [show offset + (i + 1) = offset + 1 + i by omega] at hstep
      · rintro ⟨hfirst, hrest⟩ i place hi
        cases i with
        | zero =>
          obtain rfl : first = place := by simpa using hi
          simpa using hfirst
        | succ i =>
          rw [show offset + (i + 1) = offset + 1 + i by omega]
          exact hrest i place (by simpa using hi)
    rw [hsplit]
    cases first with
    | none => simp [placesMatchAt]
    | some b =>
      have hinside : image.byte? offset = some b → offset < image.size :=
        fun hb => Image.exists_byte?_iff.1 ⟨b, hb⟩
      simp only [placesMatchAt, Bool.and_eq_true, beq_iff_eq, reduceCtorEq, false_or]
      constructor
      · intro h
        rcases h with ⟨hb, hrest⟩
        exact ⟨⟨hinside hb, hb⟩, hrest⟩
      · intro h
        rcases h with ⟨⟨-, hb⟩, hrest⟩
        exact ⟨hb, hrest⟩

theorem length_pos (p : Pattern) : 0 < p.length :=
  List.length_pos_iff.2 p.places_ne_nil

theorem matchesAt_iff {offset : Nat} :
    p.matchesAt image offset = true ↔ p.StandsAt image offset := by
  have hpos := p.length_pos
  rw [matchesAt, placesMatchAt_iff]
  constructor
  · intro h
    -- The last place fits, and so does the pattern.
    have hlast : p.length - 1 < p.places.length := by unfold length at hpos ⊢; omega
    have hfit := (h _ _ (List.getElem?_eq_getElem hlast)).1
    exact ⟨by omega, fun i place hi => (h i place hi).2⟩
  · rintro ⟨hfit, hplaces⟩ i place hi
    have hi' : i < p.length := (List.getElem?_eq_some_iff.1 hi).1
    exact ⟨by omega, hplaces i place hi⟩

/-! ## The anchor -/

/-- The anchor is a place of the pattern. -/
theorem getElem?_of_firstFixed {anchor : Nat} {b : UInt8} (h : p.firstFixed = some (anchor, b)) :
    p.places[anchor]? = some (some b) := by
  rcases List.exists_of_findSome?_eq_some h with ⟨⟨place, index⟩, hmem, hplace⟩
  rw [Option.map_eq_some_iff] at hplace
  rcases hplace with ⟨b', rfl, heq⟩
  rcases Prod.mk.inj heq with ⟨rfl, rfl⟩
  exact List.mem_zipIdx_iff_getElem?.1 hmem

/-- A pattern without an anchor has gaps only. -/
theorem eq_none_of_firstFixed (h : p.firstFixed = none) {i : Nat} {place : Option UInt8}
    (hi : p.places[i]? = some place) : place = none := by
  have hmem : (place, i) ∈ p.places.zipIdx := List.mem_zipIdx_iff_getElem?.2 hi
  simpa using List.findSome?_eq_none_iff.1 h _ hmem

/-- The offsets with room are those at which the pattern ends inside the image. -/
theorem lt_roomFor_iff {offset : Nat} :
    offset < p.roomFor image ↔ offset + p.length ≤ image.size := by
  unfold roomFor
  split <;> omega

/-- The byte that the anchor is compared with lies in the image. -/
theorem anchor_lt_size {anchor offset : Nat} {b : UInt8} (h : p.firstFixed = some (anchor, b))
    (hroom : offset < p.roomFor image) : offset + anchor < image.size := by
  have hanchor : anchor < p.length := (List.getElem?_eq_some_iff.1 (getElem?_of_firstFixed h)).1
  have hfit := lt_roomFor_iff.1 hroom
  omega

/-- The anchor drops no occurrence. -/
theorem anchor_of_standsAt {anchor offset : Nat} {b : UInt8}
    (h : p.firstFixed = some (anchor, b)) (hstands : p.StandsAt image offset) :
    image.byte? (offset + anchor) = some b := by
  rcases hstands.2 anchor _ (getElem?_of_firstFixed h) with hgap | hbyte
  · simp at hgap
  · exact hbyte

/-! ## The scan -/

/-- With an anchor or without one, the scan compares the whole pattern at each offset with room. -/
theorem scan_eq_filter (p : Pattern) (image : Image) :
    p.scan image = (List.range (p.roomFor image)).filter (p.matchesAt image) := by
  unfold scan
  cases hanchor : p.firstFixed with
  | none =>
    -- A pattern of gaps stands wherever it has room.
    simp only [offsetsBelow_eq, List.append_nil]
    apply List.filter_congr
    intro offset hoffset
    have hfit := lt_roomFor_iff.1 (List.mem_range.1 hoffset)
    symm
    exact matchesAt_iff.2 ⟨hfit, fun i place hi => .inl (eq_none_of_firstFixed hanchor hi)⟩
  | some found =>
    rcases found with ⟨anchor, b⟩
    -- Where the whole pattern agrees the anchor does, too.
    simp only [offsetsBelow_eq, List.append_nil]
    apply List.filter_congr
    intro offset _
    by_cases hmatch : p.matchesAt image offset = true
    · simp [hmatch, anchor_of_standsAt hanchor (matchesAt_iff.1 hmatch)]
    · simp [hmatch]

theorem mem_scan_iff {offset : Nat} : offset ∈ p.scan image ↔ p.StandsAt image offset := by
  rw [scan_eq_filter, List.mem_filter, List.mem_range, lt_roomFor_iff, matchesAt_iff]
  exact ⟨fun h => h.2, fun h => ⟨h.1, h⟩⟩

theorem scan_pairwise_lt (p : Pattern) (image : Image) : (p.scan image).Pairwise (· < ·) := by
  rw [scan_eq_filter]
  exact List.pairwise_lt_range.filter _

theorem scan_nodup (p : Pattern) (image : Image) : (p.scan image).Nodup :=
  (scan_pairwise_lt p image).imp Nat.ne_of_lt

/-- The length of the scan is the number of occurrences. -/
theorem ncard_standsAt (p : Pattern) (image : Image) :
    {offset | p.StandsAt image offset}.ncard = (p.scan image).length := by
  have hset : {offset | p.StandsAt image offset} = ((p.scan image).toFinset : Set Nat) := by
    ext offset
    simp [mem_scan_iff]
  rw [hset, Set.ncard_coe_finset, List.toFinset_card_of_nodup (scan_nodup p image)]

/-! ## The only occurrence -/

theorem findUnique_eq_ok_iff {offset : Nat} :
    p.findUnique image = .ok offset ↔ p.scan image = [offset] := by
  unfold findUnique
  split
  · rename_i found hscan
    simp [hscan]
  · rename_i hscan
    constructor
    · intro h
      cases h
    · intro h
      exact absurd h (hscan offset)

theorem findUnique_eq_error_iff {count : Nat} :
    p.findUnique image = .error count ↔ (p.scan image).length = count ∧ count ≠ 1 := by
  unfold findUnique
  split
  · rename_i found hscan
    simp only [hscan, List.length_singleton, reduceCtorEq, false_iff, not_and, not_not]
    exact fun h => h.symm
  · rename_i hscan
    have hne : (p.scan image).length ≠ 1 := fun h => by
      rcases List.length_eq_one_iff.1 h with ⟨offset, hsingle⟩
      exact hscan offset hsingle
    simp only [Except.error.injEq]
    constructor
    · rintro rfl
      exact ⟨rfl, hne⟩
    · exact fun h => h.1

/-- A list of distinct offsets is a singleton when it has one member only. -/
theorem scan_eq_singleton_iff {offset : Nat} :
    p.scan image = [offset] ↔ ∀ other, p.StandsAt image other ↔ other = offset := by
  constructor
  · intro h other
    rw [← mem_scan_iff, h, List.mem_singleton]
  · intro h
    have hsub : ∀ other ∈ p.scan image, other = offset := fun other hmem =>
      (h other).1 (mem_scan_iff.1 hmem)
    have hmem : offset ∈ p.scan image := mem_scan_iff.2 ((h offset).2 rfl)
    -- All members are equal, and no two of them are: there is one.
    have hrep := List.eq_replicate_of_mem hsub
    have hlength : (p.scan image).length = 1 := by
      have hnodup := scan_nodup p image
      rw [hrep, List.nodup_replicate] at hnodup
      have hpos := List.length_pos_of_mem hmem
      omega
    rw [hrep, hlength]
    rfl

/-- The scan lists the occurrences of a pattern and nothing else, in strictly ascending order. The
anchor is looked up inside the image only, as is every place at an offset with room. The only
occurrence is found when there is one, and otherwise the exact number of occurrences is told. -/
theorem scan_exact (p : Pattern) (image : Image) :
    (p.scan image).Pairwise (· < ·) ∧
    (∀ offset, offset ∈ p.scan image ↔ p.StandsAt image offset) ∧
    (∀ offset < p.roomFor image,
      (∀ anchor b, p.firstFixed = some (anchor, b) → offset + anchor < image.size) ∧
      (∀ i < p.length, offset + i < image.size)) ∧
    (∀ offset, p.findUnique image = .ok offset ↔
      ∀ other, p.StandsAt image other ↔ other = offset) ∧
    (∀ count, p.findUnique image = .error count ↔
      {offset | p.StandsAt image offset}.ncard = count ∧ count ≠ 1) := by
  refine ⟨scan_pairwise_lt p image, fun _ => mem_scan_iff, fun offset hroom => ⟨?_, ?_⟩, ?_, ?_⟩
  · intro anchor b h
    exact anchor_lt_size h hroom
  · intro i hi
    have hfit := lt_roomFor_iff.1 hroom
    omega
  · intro offset
    rw [findUnique_eq_ok_iff, scan_eq_singleton_iff]
  · intro count
    rw [findUnique_eq_error_iff, ncard_standsAt]

end OpcodeAtlas.Pattern
