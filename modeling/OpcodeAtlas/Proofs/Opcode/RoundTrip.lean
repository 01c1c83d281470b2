import Mathlib
import OpcodeAtlas.MapFile.Basic
import OpcodeAtlas.Opcode.Output
import OpcodeAtlas.Proofs.Json.Canonical
import OpcodeAtlas.Proofs.Json.Object
import OpcodeAtlas.Proofs.Table.LastBinding

/-!
# OpcodeAtlas.Proofs.Opcode.RoundTrip — a written map is read back

The text of an opcode map is read as a map file, and its members are the bindings of the map, each
opcode in decimal:

* `ordered_perm` — the written bindings are those of the map;
* `pairwise_sorted` — by strictly ascending opcode, if they are sorted;
* `mem_ordered_ofList`, `keys_ordered_ofList` — which they are and how they stand in terms of what
  was recorded;
* `toJson_roundTrip` — what the readers find in the text.
-/

namespace OpcodeAtlas.OpcodeMap

open Json (Value)

/-! ## The written bindings -/

variable (m : OpcodeMap) (sort : Bool)

/-- Sorted or not, all bindings are written. -/
theorem ordered_perm : (m.ordered sort).Perm m.toList := by
  cases sort with
  | false => exact List.Perm.refl _
  | true => exact List.mergeSort_perm _ _

theorem nodup_ordered : ((m.ordered sort).map Prod.fst).Nodup :=
  ((m.ordered_perm sort).map Prod.fst).nodup_iff.2 m.nodup_keys

/-- Sorted bindings ascend strictly, as no opcode has two of them. -/
theorem pairwise_sorted : m.sorted.Pairwise fun b b' => b.1 < b'.1 := by
  have hle : m.sorted.Pairwise fun b b' => decide (b.1 ≤ b'.1) = true :=
    List.pairwise_mergeSort (by simpa using fun _ _ _ => Int.le_trans) (by simp [Int.le_total]) _
  have hne := List.pairwise_map.1 (m.nodup_ordered true)
  exact hle.imp₂ (fun b b' hle hne => lt_of_le_of_ne (of_decide_eq_true hle) hne) hne

variable (records : List (Int × String))

/-- An opcode has the name that was recorded for it last. -/
theorem mem_ordered_ofList {opcode : Int} {name : String} :
    (opcode, name) ∈ ordered (.ofList records) sort ↔
      Bindings.find? opcode records.reverse = some name := by
  rw [(ordered_perm _ sort).mem_iff, OrderedTable.mem_toList_iff, OrderedTable.get?_ofList]

/-- Unsorted, the opcodes stand in the order in which they were recorded first. -/
theorem keys_ordered_ofList :
    (ordered (.ofList records) false).map Prod.fst = (records.map Prod.fst).eraseDups :=
  OrderedTable.keys_ofList records

/-! ## The members -/

/-- The member of a binding: the opcode in decimal and the name. -/
def member (b : Int × String) : String × Value := (toString b.1, .text b.2)

/-- Distinct opcodes have distinct decimals. -/
theorem toString_injective : Function.Injective fun opcode : Int => toString opcode := by
  intro opcode opcode' heq
  simp only [Int.toString_eq_repr] at heq
  exact Int.repr_inj.1 heq

theorem nodup_members {bindings : List (Int × String)} (h : (bindings.map Prod.fst).Nodup) :
    ((bindings.map member).map Prod.fst).Nodup := by
  have hkeys : (bindings.map member).map Prod.fst =
      (bindings.map Prod.fst).map fun opcode => toString opcode := by
    simp [member]
  rw [hkeys]
  exact h.map toString_injective

/-- The whole document is an object with a member for each binding, in the order of writing. -/
theorem document_toJson (style : Json.Style) :
    Json.document (Json.withoutComments (Text.utf8 (m.toJson style sort))) =
      .ok (.object ((m.ordered sort).map member)) := by
  rw [toJson, Json.withoutComments_objectOfTexts, Json.document_objectOfTexts, List.map_map]
  rfl

/-- As a map file the text has the same members. -/
theorem ofText_toJson (style : Json.Style) :
    MapFile.ofText (m.toJson style sort) =
      .ok ⟨Json.canonicalMembers ((m.ordered sort).map member)⟩ := by
  unfold MapFile.ofText MapFile.ofBytes
  simp only [document_toJson]
  rfl

/-- Whatever is recorded, the text of the map is read as a map file, in either style and sorted or
not. What the reader finds is a member for each opcode and no other, with the name that was
recorded last. In the text the members stand by ascending opcode if they are sorted, and else in the
order in which their opcodes were recorded first. -/
theorem toJson_roundTrip (style : Json.Style) :
    ∃ bindings : List (Int × String),
      Json.document (Json.withoutComments (Text.utf8 (toJson (.ofList records) style sort))) =
        .ok (.object (bindings.map fun b => (toString b.1, .text b.2))) ∧
      (∃ file, MapFile.ofText (toJson (.ofList records) style sort) = .ok file ∧
        file.members.Perm (bindings.map fun b => (toString b.1, .text b.2)) ∧
        (file.members.map Prod.fst).Nodup) ∧
      (bindings.map Prod.fst).Nodup ∧
      (∀ opcode name, (opcode, name) ∈ bindings ↔
        Bindings.find? opcode records.reverse = some name) ∧
      (sort = true → bindings.Pairwise fun b b' => b.1 < b'.1) ∧
      (sort = false → bindings.map Prod.fst = (records.map Prod.fst).eraseDups) := by
  have hnodup := nodup_ordered (.ofList records) sort
  have hmembers := Json.canonicalMembers_perm (nodup_members hnodup)
  refine ⟨ordered (.ofList records) sort, document_toJson _ sort style,
    ⟨_, ofText_toJson _ sort style, hmembers, ?_⟩, hnodup, fun _ _ => mem_ordered_ofList sort records,
    ?_, ?_⟩
  · exact (hmembers.map Prod.fst).nodup_iff.2 (nodup_members hnodup)
  · rintro rfl
    exact pairwise_sorted _
  · rintro rfl
    exact keys_ordered_ofList records

end OpcodeAtlas.OpcodeMap
