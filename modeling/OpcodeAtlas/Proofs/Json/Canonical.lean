import Mathlib.Data.List.Induction
import Mathlib.Data.List.Nodup
import Mathlib.Data.String.Basic
import OpcodeAtlas.Json.Value

/-!
# OpcodeAtlas.Proofs.Json.Canonical — an object as a table

The canonical members of an object stand by strictly ascending key:

* `mem_bindSorted` — which members there are after one more;
* `pairwise_bindSorted` — one more member keeps the order;
* `pairwise_canonicalMembers` — so do all members of an object;
* `lookup_bindSorted_self`, `lookup_bindSorted_of_ne` — a binding decides its own key and no other;
* `canonicalMembers_perm` — where no key stands twice, no member gets lost;
* `mem_canonicalMembers_iff` — otherwise each key has its last value (`lastValue?`);
* `canonicalMembers_congr` — so the order in which members are written does not matter beyond that.
-/

namespace OpcodeAtlas.Json

variable {α : Type}

/-- A member that was bound is the new one or was there before. -/
theorem mem_bindSorted {key : String} {value : α} {sorted : List (String × α)}
    {m : String × α} (h : m ∈ bindSorted key value sorted) : m = (key, value) ∨ m ∈ sorted := by
  induction sorted with
  | nil => exact .inl (List.mem_singleton.1 h)
  | cons first rest ih =>
    rcases first with ⟨k, v⟩
    rw [bindSorted] at h
    split at h
    · exact List.mem_cons.1 h
    · split at h
      · rcases List.mem_cons.1 h with rfl | hrest
        · exact .inl rfl
        · exact .inr (List.mem_cons_of_mem _ hrest)
      · rcases List.mem_cons.1 h with rfl | hrest
        · exact .inr List.mem_cons_self
        · rcases ih hrest with hnew | hold
          · exact .inl hnew
          · exact .inr (List.mem_cons_of_mem _ hold)

/-- One more member keeps the members in strictly ascending order of their keys. -/
theorem pairwise_bindSorted {key : String} {value : α} {sorted : List (String × α)}
    (h : sorted.Pairwise fun m m' => m.1 < m'.1) :
    (bindSorted key value sorted).Pairwise fun m m' => m.1 < m'.1 := by
  induction sorted with
  | nil => exact List.pairwise_singleton _ _
  | cons first rest ih =>
    rcases first with ⟨k, v⟩
    rcases List.pairwise_cons.1 h with ⟨hfirst, hrest⟩
    rw [bindSorted]
    split
    · rename_i hbefore
      refine List.pairwise_cons.2 ⟨fun m hm => ?_, h⟩
      rcases List.mem_cons.1 hm with rfl | hm
      · exact hbefore
      · exact hbefore.trans (hfirst m hm)
    · split
      · rename_i heq
        subst heq
        exact List.pairwise_cons.2 ⟨hfirst, hrest⟩
      · rename_i hnot hne
        have hbehind : k < key := lt_of_le_of_ne (not_lt.1 hnot) (Ne.symm hne)
        refine List.pairwise_cons.2 ⟨fun m hm => ?_, ih hrest⟩
        rcases mem_bindSorted hm with rfl | hm
        · exact hbehind
        · exact hfirst m hm

theorem pairwise_canonicalMembers (members : List (String × α)) :
    (canonicalMembers members).Pairwise fun m m' => m.1 < m'.1 := by
  -- The order is kept by each of the bindings that the members make, one after the other.
  have hrun : ∀ sorted : List (String × α), sorted.Pairwise (fun m m' => m.1 < m'.1) →
      (members.foldl (fun sorted m => bindSorted m.1 m.2 sorted) sorted).Pairwise
        fun m m' => m.1 < m'.1 := by
    induction members with
    | nil => exact fun sorted h => h
    | cons m rest ih => exact fun sorted h => ih _ (pairwise_bindSorted h)
  exact hrun [] List.Pairwise.nil

/-- A look-up passes by a binding of another key. -/
theorem lookup_cons_of_ne {κ : Type} [BEq κ] [LawfulBEq κ] {key other : κ} (h : other ≠ key)
    (value : α) (rest : List (κ × α)) : ((key, value) :: rest).lookup other = rest.lookup other := by
  rw [List.lookup_cons, beq_false_of_ne h]

/-- A key that was bound has the value that it was bound to. -/
theorem lookup_bindSorted_self (key : String) (value : α) (sorted : List (String × α)) :
    (bindSorted key value sorted).lookup key = some value := by
  induction sorted with
  | nil => simp [bindSorted]
  | cons first rest ih =>
    rcases first with ⟨k, v⟩
    rw [bindSorted]
    split
    · simp
    · split
      · simp
      · rename_i hne
        rw [lookup_cons_of_ne hne, ih]

/-- No other key notices. -/
theorem lookup_bindSorted_of_ne {key other : String} (h : other ≠ key) (value : α)
    (sorted : List (String × α)) :
    (bindSorted key value sorted).lookup other = sorted.lookup other := by
  induction sorted with
  | nil => exact lookup_cons_of_ne h value []
  | cons first rest ih =>
    rcases first with ⟨k, v⟩
    rw [bindSorted]
    split
    · exact lookup_cons_of_ne h value _
    · split
      · rename_i heq
        subst heq
        rw [lookup_cons_of_ne h, lookup_cons_of_ne h]
      · rw [List.lookup_cons, List.lookup_cons, ih]

/-- A member with a new key comes to the others. -/
theorem bindSorted_perm {key : String} (value : α) {sorted : List (String × α)}
    (h : key ∉ sorted.map Prod.fst) :
    (bindSorted key value sorted).Perm ((key, value) :: sorted) := by
  induction sorted with
  | nil => exact List.Perm.refl _
  | cons first rest ih =>
    rcases first with ⟨k, v⟩
    rw [List.map_cons, List.mem_cons, not_or] at h
    rcases h with ⟨hne, hrest⟩
    rw [bindSorted, if_neg hne]
    split
    · exact List.Perm.refl _
    · exact ((ih hrest).cons (k, v)).trans (List.Perm.swap _ _ _)

/-- Members that are bound one after the other, each with a new key, come to those before. -/
theorem foldl_bindSorted_perm {members sorted : List (String × α)}
    (h : ((members ++ sorted).map Prod.fst).Nodup) :
    (members.foldl (fun sorted m => bindSorted m.1 m.2 sorted) sorted).Perm
      (members ++ sorted) := by
  induction members generalizing sorted with
  | nil => exact List.Perm.refl _
  | cons m rest ih =>
    have hnew : m.1 ∉ sorted.map Prod.fst := by
      rw [List.cons_append, List.map_cons, List.nodup_cons, List.map_append, List.mem_append,
        not_or] at h
      exact h.1.2
    have hmoved : (rest ++ bindSorted m.1 m.2 sorted).Perm (m :: rest ++ sorted) :=
      ((bindSorted_perm m.2 hnew).append_left rest).trans List.perm_middle
    exact (ih ((hmoved.map Prod.fst).nodup_iff.2 h)).trans hmoved

/-- Where no key stands twice, the canonical members are the members. -/
theorem canonicalMembers_perm {members : List (String × α)} (h : (members.map Prod.fst).Nodup) :
    (canonicalMembers members).Perm members := by
  have hnodup : ((members ++ []).map Prod.fst).Nodup := by rwa [List.append_nil]
  have hperm := foldl_bindSorted_perm hnodup
  rwa [List.append_nil] at hperm

/-! ## The last value of a key -/

/-- The value of a key in an object: the last one, if the key stands there several times. -/
def lastValue? (members : List (String × α)) (key : String) : Option α :=
  members.reverse.lookup key

theorem lookup_canonicalMembers (members : List (String × α)) (key : String) :
    (canonicalMembers members).lookup key = lastValue? members key := by
  induction members using List.reverseRec with
  | nil => rfl
  | append_singleton front m ih =>
    have hstep : canonicalMembers (front ++ [m]) = bindSorted m.1 m.2 (canonicalMembers front) :=
      List.foldl_append
    have hlast : lastValue? (front ++ [m]) key = (m :: front.reverse).lookup key := by
      rw [lastValue?, List.reverse_append]
      rfl
    rw [hstep, hlast, List.lookup_cons]
    -- The last member decides its own key, and the members in front of it all others.
    by_cases hkey : key = m.1
    · subst hkey
      rw [lookup_bindSorted_self, beq_self_eq_true]
    · rw [lookup_bindSorted_of_ne hkey, beq_false_of_ne hkey]
      exact ih

/-- In members with distinct keys the members are what look-ups find. -/
theorem lookup_eq_some_iff_mem {members : List (String × α)} (h : (members.map Prod.fst).Nodup)
    {key : String} {v : α} : members.lookup key = some v ↔ (key, v) ∈ members := by
  induction members with
  | nil => simp
  | cons m rest ih =>
    rcases m with ⟨k, w⟩
    rw [List.map_cons, List.nodup_cons] at h
    rw [List.lookup_cons, List.mem_cons, Prod.mk.injEq]
    by_cases hkey : key = k
    · subst hkey
      have hnot : (key, v) ∉ rest := fun hmem => h.1 (List.mem_map.2 ⟨(key, v), hmem, rfl⟩)
      simp [hnot, eq_comm]
    · rw [beq_false_of_ne hkey]
      simp [hkey, ih h.2]

theorem nodup_keys_canonicalMembers (members : List (String × α)) :
    ((canonicalMembers members).map Prod.fst).Nodup :=
  List.pairwise_map.2 ((pairwise_canonicalMembers members).imp ne_of_lt)

/-- The canonical members are the keys with their last values. -/
theorem mem_canonicalMembers_iff {members : List (String × α)} {key : String} {v : α} :
    (key, v) ∈ canonicalMembers members ↔ lastValue? members key = some v := by
  rw [← lookup_eq_some_iff_mem (nodup_keys_canonicalMembers members), lookup_canonicalMembers]

/-- Members that give each key the same last value are one object. -/
theorem canonicalMembers_congr {members others : List (String × α)}
    (h : ∀ key, lastValue? members key = lastValue? others key) :
    canonicalMembers members = canonicalMembers others := by
  have hperm : (canonicalMembers members).Perm (canonicalMembers others) := by
    rw [List.perm_ext_iff_of_nodup (List.Nodup.of_map _ (nodup_keys_canonicalMembers members))
      (List.Nodup.of_map _ (nodup_keys_canonicalMembers others))]
    rintro ⟨key, v⟩
    rw [mem_canonicalMembers_iff, mem_canonicalMembers_iff, h]
  exact hperm.eq_of_pairwise (fun _ _ _ _ hlt hgt => absurd hlt (lt_asymm hgt))
    (pairwise_canonicalMembers members) (pairwise_canonicalMembers others)

/-- Where no key stands twice, the last value of a key is its only one. -/
theorem lastValue?_eq_some_iff_mem {members : List (String × α)}
    (h : (members.map Prod.fst).Nodup) {key : String} {v : α} :
    lastValue? members key = some v ↔ (key, v) ∈ members := by
  have hreverse : (members.reverse.map Prod.fst).Nodup := by
    rw [List.map_reverse, List.nodup_reverse]
    exact h
  rw [lastValue?, lookup_eq_some_iff_mem hreverse, List.mem_reverse]

end OpcodeAtlas.Json
