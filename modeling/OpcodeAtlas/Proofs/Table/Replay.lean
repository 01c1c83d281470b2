import Mathlib.Data.List.Basic
import Mathlib.Data.List.Perm.Basic
import OpcodeAtlas.Proofs.Table.LastBinding

/-!
# OpcodeAtlas.Proofs.Table.Replay — what a list of writes leaves behind

A table that is written to key by key ends with one binding for each key that was written: it stands
where the key was written first and holds what was written last (`LeftBy`).

* `get?_ofList_eq_some_iff_writtenLast` — a look-up finds what was written last;
* `pairwise_idxOf_eraseDups` — keys without their repetitions stand in the order of their first places;
* `leftBy_ofList` — the table is left by its writes;
* `LeftBy.unique` — and no other list of bindings is;
* `toList_ofList_of_nodup` — writes to distinct keys are left as they are.
-/

namespace OpcodeAtlas

variable {α β : Type}

/-- The last write to the key is that of the value. -/
def WrittenLast (writes : List (α × β)) (key : α) (value : β) : Prop :=
  ∃ front back, writes = front ++ (key, value) :: back ∧ key ∉ back.map Prod.fst

variable [DecidableEq α] {writes bindings bindings' : List (α × β)}

/-- The bindings are what the writes leave: each key that is written stands once, with the value of
its last write, and before the keys that are written first after it. -/
structure LeftBy (writes bindings : List (α × β)) : Prop where
  once : (bindings.map Prod.fst).Nodup
  mem_iff : ∀ key value, (key, value) ∈ bindings ↔ WrittenLast writes key value
  ordered : bindings.Pairwise fun b b' =>
    (writes.map Prod.fst).idxOf b.1 < (writes.map Prod.fst).idxOf b'.1

/-- The writes determine what they leave. -/
theorem LeftBy.unique (h : LeftBy writes bindings) (h' : LeftBy writes bindings') :
    bindings = bindings' := by
  have hperm : bindings.Perm bindings' := by
    rw [List.perm_ext_iff_of_nodup (List.Nodup.of_map _ h.once) (List.Nodup.of_map _ h'.once)]
    rintro ⟨key, value⟩
    rw [h.mem_iff, h'.mem_iff]
  exact hperm.eq_of_pairwise (fun _ _ _ _ hlt hgt => absurd hlt (Nat.lt_asymm hgt)) h.ordered h'.ordered

/-- Keys without their repetitions stand in the order of their first places. -/
theorem pairwise_idxOf_eraseDups (keys : List α) :
    keys.eraseDups.Pairwise fun k k' => keys.idxOf k < keys.idxOf k' := by
  induction keys using List.reverseRec with
  | nil => exact List.Pairwise.nil
  | append_singleton front k ih =>
    -- The first places of keys in front stay where they are.
    have hfront : front.eraseDups.Pairwise
        fun a b => (front ++ [k]).idxOf a < (front ++ [k]).idxOf b := by
      refine List.Pairwise.imp_of_mem ?_ ih
      intro a b ha hb hlt
      rwa [List.idxOf_append_of_mem (List.mem_eraseDups.1 ha),
        List.idxOf_append_of_mem (List.mem_eraseDups.1 hb)]
    rw [List.eraseDups_append]
    by_cases hk : k ∈ front
    · simpa [List.removeAll, hk] using hfront
    · have hlast : ([k].removeAll front).eraseDups = [k] := by
        simp [List.removeAll, hk, List.eraseDups_cons]
      rw [hlast, List.pairwise_append]
      refine ⟨hfront, List.pairwise_singleton _ k, ?_⟩
      intro a ha b hb
      obtain rfl := List.mem_singleton.1 hb
      rw [List.idxOf_append_of_mem (List.mem_eraseDups.1 ha), List.idxOf_append_of_notMem hk]
      have hplace := List.idxOf_lt_length_of_mem (List.mem_eraseDups.1 ha)
      omega

namespace Bindings

/-- What a look-up finds stands in front of all other bindings of the key. -/
theorem exists_split_of_find? {key : α} {value : β} (h : find? key bindings = some value) :
    ∃ front back, bindings = front ++ (key, value) :: back ∧ key ∉ front.map Prod.fst := by
  induction bindings with
  | nil => cases h
  | cons b rest ih =>
    rcases b with ⟨k, v⟩
    by_cases hk : k = key
    · subst hk
      rw [find?, if_pos rfl] at h
      cases h
      exact ⟨[], rest, rfl, by simp⟩
    · rw [find?, if_neg hk] at h
      rcases ih h with ⟨front, back, rfl, hfront⟩
      exact ⟨(k, v) :: front, back, rfl, by simp [hfront, Ne.symm hk]⟩

end Bindings

namespace OrderedTable

/-- A look-up finds what was written last. -/
theorem get?_ofList_eq_some_iff_writtenLast {key : α} {value : β} :
    (ofList writes).get? key = some value ↔ WrittenLast writes key value := by
  constructor
  · intro h
    rw [get?_ofList] at h
    rcases Bindings.exists_split_of_find? h with ⟨front, back, hsplit, hfront⟩
    refine ⟨back.reverse, front.reverse, ?_, by simpa using hfront⟩
    rw [← List.reverse_reverse writes, hsplit]
    simp
  · rintro ⟨front, back, rfl, hback⟩
    exact get?_ofList_append_cons hback

theorem leftBy_ofList (writes : List (α × β)) : LeftBy writes (ofList writes).toList where
  once := (ofList writes).nodup_keys
  mem_iff key value := by
    rw [mem_toList_iff, get?_ofList_eq_some_iff_writtenLast]
  ordered := by
    have hkeys := pairwise_idxOf_eraseDups (writes.map Prod.fst)
    rw [← keys_ofList, keys, List.pairwise_map] at hkeys
    exact hkeys

/-- Writes to distinct keys are left as they are. -/
theorem toList_ofList_of_nodup (h : (writes.map Prod.fst).Nodup) :
    (ofList writes).toList = writes := by
  induction writes using List.reverseRec with
  | nil => rfl
  | append_singleton front b ih =>
    rw [List.map_append, List.nodup_append] at h
    rcases h with ⟨hfront, -, hnew⟩
    have hb : b.1 ∉ (ofList front).keys := by
      rw [keys, ih hfront]
      exact fun hmem => hnew _ hmem _ (by simp) rfl
    rw [ofList_concat, toList_insert_of_not_mem _ _ hb, ih hfront]

end OrderedTable

end OpcodeAtlas
