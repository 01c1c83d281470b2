import Mathlib.Data.List.Perm.Subperm
import OpcodeAtlas.Proofs.Json.Condensed
import OpcodeAtlas.Proofs.Opcode.RoundTrip

/-!
# OpcodeAtlas.Proofs.Opcode.Canonical — equal maps have one sorted text

Two maps are equal when they give every opcode the same name, in whatever order they were recorded.
Sorting forgets that order and nothing else, and a text tells what was written:

* `OrderedTable.agrees_iff_perm`, `OrderedTable.perm_iff_get?` — equal tables hold the same bindings;
* `OpcodeMap.sorted_eq_iff_perm` — which stand in one order once they are sorted;
* `OpcodeMap.toJson_inj` — a text determines the bindings and their order;
* `OpcodeMap.toJson_canonical` — so equal maps have the same sorted text and different maps different
  ones, in either style, and the styles differ in white space only.
-/

namespace OpcodeAtlas

/-! ## Tables that agree -/

namespace OrderedTable

variable {α β : Type} {s t : OrderedTable α β}

theorem nodup_toList (t : OrderedTable α β) : t.toList.Nodup := List.Nodup.of_map _ t.nodup_keys

variable [DecidableEq α]

/-- Tables hold the same bindings if look-ups find the same in them. -/
theorem perm_iff_get? : s.toList.Perm t.toList ↔ ∀ key, s.get? key = t.get? key := by
  rw [List.perm_ext_iff_of_nodup s.nodup_toList t.nodup_toList]
  constructor
  · intro h key
    apply Option.ext
    intro value
    rw [← mem_toList_iff, ← mem_toList_iff]
    exact h (key, value)
  · rintro h ⟨key, value⟩
    rw [mem_toList_iff, mem_toList_iff, h key]

/-- Tables agree if they hold the same bindings. One of them need not be looked up in the other, as
bindings that are equally many and found there are all of them. -/
theorem agrees_iff_perm [DecidableEq β] : s.agrees t = true ↔ s.toList.Perm t.toList := by
  have hfound : (s.toList.all fun b => t.get? b.1 == some b.2) = true ↔ s.toList ⊆ t.toList := by
    rw [List.all_eq_true]
    constructor
    · intro h b hb
      exact (mem_toList_iff t).2 (eq_of_beq (h b hb))
    · intro h b hb
      exact beq_iff_eq.2 ((mem_toList_iff t).1 (h hb))
  have hagrees : s.agrees t =
      (s.size == t.size && s.toList.all fun b => t.get? b.1 == some b.2) := rfl
  rw [hagrees, Bool.and_eq_true, beq_iff_eq, hfound, size, size]
  constructor
  · rintro ⟨hsize, hsubset⟩
    have hsubperm := List.subperm_of_subset s.nodup_toList hsubset
    exact hsubperm.perm_of_length_le (Nat.le_of_eq hsize.symm)
  · intro h
    exact ⟨h.length_eq, h.subset⟩

end OrderedTable

/-! ## Sorted maps and their texts -/

namespace OpcodeMap

variable {m m' : OpcodeMap}

/-- Sorting forgets the order in which the opcodes were recorded, and nothing else. -/
theorem sorted_eq_iff_perm : m.sorted = m'.sorted ↔ m.toList.Perm m'.toList := by
  have hperm : m.sorted.Perm m.toList := m.ordered_perm true
  have hperm' : m'.sorted.Perm m'.toList := m'.ordered_perm true
  constructor
  · intro h
    rw [h] at hperm
    exact hperm.symm.trans hperm'
  · intro h
    have hsame : m.sorted.Perm m'.sorted := hperm.trans (h.trans hperm'.symm)
    refine hsame.eq_of_pairwise ?_ m.pairwise_sorted m'.pairwise_sorted
    -- Strictly ascending bindings leave no two of them to be exchanged.
    intro b b' _ _ hlt hgt
    omega

/-- Bindings are determined by their members. -/
theorem member_injective : Function.Injective member := by
  rintro ⟨opcode, name⟩ ⟨opcode', name'⟩ h
  unfold member at h
  rw [Prod.mk.injEq, Json.Value.text.injEq] at h
  exact Prod.ext (toString_injective h.1) h.2

/-- Maps with one text have the same bindings in the same order: the reader finds them in it. -/
theorem toJson_inj {style : Json.Style} {sort : Bool} :
    m.toJson style sort = m'.toJson style sort ↔ m.ordered sort = m'.ordered sort := by
  constructor
  · intro h
    have hdocument := m.document_toJson sort style
    rw [h, m'.document_toJson sort style, Except.ok.injEq, Json.Value.object.injEq] at hdocument
    exact (List.map_injective_iff.2 member_injective hdocument).symm
  · intro h
    rw [toJson, toJson, h]

/-- Two maps are equal if they have the same names for the same opcodes, whatever the order in which
these were recorded; and equal maps, and they alone, have the same sorted text, in either style.
Sorted or not, the compact text of a map is what is left of the pretty one without the white space
outside of string literals. -/
theorem toJson_canonical (m m' : OpcodeMap) :
    (m.agrees m' = true ↔ ∀ opcode, m.get? opcode = m'.get? opcode) ∧
    (∀ style, m.agrees m' = true ↔ m.toJson style true = m'.toJson style true) ∧
    ∀ sort, Json.condense (m.toJson .pretty sort) = m.toJson .compact sort := by
  refine ⟨OrderedTable.agrees_iff_perm.trans OrderedTable.perm_iff_get?, ?_, ?_⟩
  · intro style
    rw [OrderedTable.agrees_iff_perm, toJson_inj, ← sorted_eq_iff_perm]
    rfl
  · intro sort
    exact Json.condense_objectOfTexts .pretty _

end OpcodeMap

end OpcodeAtlas
