import Mathlib.Data.List.Induction
import Mathlib.Data.List.Nodup
import OpcodeAtlas.Table.Ordered

/-!
# OpcodeAtlas.Proofs.Table.LastBinding — the last binding of a key counts

A table that binds listed keys one after the other gives each key the value that it was bound to
last, at the place where it was bound first:

* `Bindings.find?_append` — a look-up in two lists, one after the other;
* `get?_insertMany`, `get?_ofList` — a look-up finds the last binding of the key;
* `get?_ofList_append_cons` — a binding holds if its key is not listed again behind it;
* `get?_ofList_eq_none` — a key that is not listed is not bound;
* `keys_ofList` — the keys stand in the order in which they are listed first.
-/

namespace OpcodeAtlas

variable {α β : Type} [DecidableEq α]

theorem Bindings.find?_append (key : α) (front back : List (α × β)) :
    find? key (front ++ back) = (find? key front).or (find? key back) := by
  induction front with
  | nil => simp [find?]
  | cons b rest ih =>
    rcases b with ⟨k, v⟩
    by_cases hk : k = key <;> simp [find?, hk, ih]

/-- A key that is not listed is not found. -/
theorem Bindings.find?_eq_none {key : α} {bindings : List (α × β)}
    (h : key ∉ bindings.map Prod.fst) : find? key bindings = none := by
  induction bindings with
  | nil => rfl
  | cons b rest ih =>
    rcases b with ⟨k, v⟩
    rw [List.map_cons, List.mem_cons, not_or] at h
    rw [find?, if_neg (Ne.symm h.1), ih h.2]

namespace OrderedTable

/-- One more binding decides the look-up of its own key and no other. -/
theorem get?_insert (t : OrderedTable α β) (key k : α) (value : β) :
    (t.insert key value).get? k = if key = k then some value else t.get? k := by
  by_cases hk : key = k
  · subst hk
    rw [if_pos rfl, get?_insert_self]
  · rw [if_neg hk, get?_insert_of_ne t value (Ne.symm hk)]

/-- A look-up finds the last of the listed bindings of the key, or else what was bound before. -/
theorem get?_insertMany (t : OrderedTable α β) (bindings : List (α × β)) (key : α) :
    (t.insertMany bindings).get? key =
      (Bindings.find? key bindings.reverse).or (t.get? key) := by
  induction bindings generalizing t with
  | nil => rfl
  | cons b rest ih =>
    rcases b with ⟨k, v⟩
    have hstep : t.insertMany ((k, v) :: rest) = (t.insert k v).insertMany rest := rfl
    rw [hstep, ih, get?_insert, List.reverse_cons, Bindings.find?_append]
    by_cases hk : k = key <;> simp [Bindings.find?, hk]

theorem get?_ofList (bindings : List (α × β)) (key : α) :
    (ofList bindings).get? key = Bindings.find? key bindings.reverse := by
  rw [ofList, get?_insertMany]
  exact Option.or_none

/-- The last binding of a key holds, whatever is bound before it. -/
theorem get?_ofList_append_cons {front back : List (α × β)} {key : α} {value : β}
    (h : key ∉ back.map Prod.fst) :
    (ofList (front ++ (key, value) :: back)).get? key = some value := by
  have hback : Bindings.find? key back.reverse = none := by
    apply Bindings.find?_eq_none
    rwa [List.map_reverse, List.mem_reverse]
  rw [get?_ofList, List.reverse_append, List.reverse_cons, List.append_assoc,
    Bindings.find?_append, hback]
  simp [Bindings.find?]

theorem get?_ofList_eq_none {bindings : List (α × β)} {key : α}
    (h : key ∉ bindings.map Prod.fst) : (ofList bindings).get? key = none := by
  rw [get?_ofList]
  apply Bindings.find?_eq_none
  rwa [List.map_reverse, List.mem_reverse]

theorem ofList_concat (front : List (α × β)) (b : α × β) :
    ofList (front ++ [b]) = (ofList front).insert b.1 b.2 := by
  simp [ofList, insertMany]

/-- The keys stand in the order in which they are listed first. -/
theorem keys_ofList (bindings : List (α × β)) :
    (ofList bindings).keys = (bindings.map Prod.fst).eraseDups := by
  induction bindings using List.reverseRec with
  | nil => rfl
  | append_singleton front b ih =>
    have hmem : b.1 ∈ (ofList front).keys ↔ b.1 ∈ front.map Prod.fst := by
      rw [ih, List.mem_eraseDups]
    rw [ofList_concat, List.map_append, List.eraseDups_append, ← ih]
    by_cases hb : b.1 ∈ front.map Prod.fst
    · -- A key that is bound already keeps its place.
      rw [keys_insert_of_mem _ _ (hmem.2 hb)]
      simp [List.removeAll, hb]
    · rw [keys, toList_insert_of_not_mem _ _ (mt hmem.1 hb)]
      simp [List.removeAll, hb, keys, List.eraseDups_cons]

end OrderedTable

end OpcodeAtlas
