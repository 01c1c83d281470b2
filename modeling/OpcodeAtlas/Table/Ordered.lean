/-!
# OpcodeAtlas.Table.Ordered — tables that keep their order

An `OrderedTable` binds each of its keys to one value and remembers in which order the keys came:
binding a key again replaces its value where it stands.

* `toList_insert_of_not_mem`, `keys_insert_of_mem` — where a binding goes;
* `get?_insert_self`, `get?_insert_of_ne` — what a look-up finds after it;
* `exchange_eq` — what a binding gives back is what a look-up found before it;
* `mem_toList_iff` — the bindings are what look-ups find.
-/

namespace OpcodeAtlas

variable {α β : Type} [DecidableEq α]

/-! ## Bindings in a list -/

namespace Bindings

/-- The value bound to a key by the first binding of that key. -/
def find? (key : α) : List (α × β) → Option β
  | [] => none
  | (k, v) :: rest => if k = key then some v else find? key rest

/-- Replaces the value of a key where it stands, or binds it at the end. -/
def put (key : α) (value : β) : List (α × β) → List (α × β)
  | [] => [(key, value)]
  | (k, v) :: rest => if k = key then (key, value) :: rest else (k, v) :: put key value rest

/-- Binds a key as `put` does, in the same walk taking out the value that was bound to it. -/
def exchange (key : α) (value : β) : List (α × β) → Option β × List (α × β)
  | [] => (none, [(key, value)])
  | (k, v) :: rest =>
    if k = key then (some v, (key, value) :: rest)
    else
      let (old, rest) := exchange key value rest
      (old, (k, v) :: rest)

theorem exchange_eq (key : α) (value : β) (bindings : List (α × β)) :
    exchange key value bindings = (find? key bindings, put key value bindings) := by
  induction bindings with
  | nil => rfl
  | cons b rest ih =>
    obtain ⟨k, v⟩ := b
    by_cases hk : k = key <;> simp [exchange, find?, put, hk, ih]

theorem mem_keys_put {key : α} {value : β} {bindings : List (α × β)} {k : α} :
    k ∈ (put key value bindings).map Prod.fst ↔ k = key ∨ k ∈ bindings.map Prod.fst := by
  induction bindings with
  | nil => simp [put]
  | cons b rest ih =>
    obtain ⟨k', v⟩ := b
    by_cases h : k' = key
    · subst h; simp [put]
    · simp only [put, h, if_false, List.map_cons, List.mem_cons, ih]
      constructor
      · rintro (h | h | h) <;> simp [h]
      · rintro (h | h | h) <;> simp [h]

theorem nodup_keys_put {key : α} {value : β} {bindings : List (α × β)}
    (h : (bindings.map Prod.fst).Nodup) : ((put key value bindings).map Prod.fst).Nodup := by
  induction bindings with
  | nil => simp [put]
  | cons b rest ih =>
    obtain ⟨k, v⟩ := b
    rw [List.map_cons, List.nodup_cons] at h
    by_cases hk : k = key
    · subst hk
      simpa [put] using h
    · simp only [put, hk, if_false, List.map_cons, List.nodup_cons]
      refine ⟨fun hmem => ?_, ih h.2⟩
      rcases mem_keys_put.1 hmem with rfl | hmem
      · exact hk rfl
      · exact h.1 hmem

theorem nodup_keys_exchange {key : α} {value : β} {bindings : List (α × β)}
    (h : (bindings.map Prod.fst).Nodup) :
    ((exchange key value bindings).2.map Prod.fst).Nodup := by
  rw [exchange_eq]
  exact nodup_keys_put h

theorem put_of_not_mem {key : α} {value : β} {bindings : List (α × β)}
    (h : key ∉ bindings.map Prod.fst) : put key value bindings = bindings ++ [(key, value)] := by
  induction bindings with
  | nil => rfl
  | cons b rest ih =>
    obtain ⟨k, v⟩ := b
    simp only [List.map_cons, List.mem_cons, not_or] at h
    simp [put, Ne.symm h.1, ih h.2]

theorem keys_put_of_mem {key : α} {value : β} {bindings : List (α × β)}
    (h : key ∈ bindings.map Prod.fst) :
    (put key value bindings).map Prod.fst = bindings.map Prod.fst := by
  induction bindings with
  | nil => simp at h
  | cons b rest ih =>
    obtain ⟨k, v⟩ := b
    by_cases hk : k = key
    · simp [put, hk]
    · simp only [List.map_cons, List.mem_cons] at h
      have hmem : key ∈ rest.map Prod.fst := h.resolve_left fun e => hk e.symm
      simp [put, hk, ih hmem]

theorem find?_put_self (key : α) (value : β) (bindings : List (α × β)) :
    find? key (put key value bindings) = some value := by
  induction bindings with
  | nil => simp [put, find?]
  | cons b rest ih =>
    obtain ⟨k, v⟩ := b
    by_cases hk : k = key <;> simp [put, find?, hk, ih]

theorem find?_put_of_ne {key k : α} (value : β) (bindings : List (α × β)) (h : k ≠ key) :
    find? k (put key value bindings) = find? k bindings := by
  induction bindings with
  | nil => simp [put, find?, Ne.symm h]
  | cons b rest ih =>
    obtain ⟨k', v⟩ := b
    by_cases hk : k' = key
    · subst hk; simp [put, find?, Ne.symm h]
    · by_cases hk' : k' = k
      · subst hk'; simp [put, find?, h]
      · simp [put, find?, hk, hk', ih]

theorem find?_eq_some_iff {bindings : List (α × β)} (h : (bindings.map Prod.fst).Nodup) {k : α}
    {v : β} : find? k bindings = some v ↔ (k, v) ∈ bindings := by
  induction bindings with
  | nil => simp [find?]
  | cons b rest ih =>
    obtain ⟨k', v'⟩ := b
    rw [List.map_cons, List.nodup_cons] at h
    by_cases hk : k' = k
    · subst hk
      have hnot : (k', v) ∉ rest := fun hmem =>
        h.1 (List.mem_map.2 ⟨(k', v), hmem, rfl⟩)
      simp [find?, hnot, eq_comm]
    · simp [find?, hk, ih h.2, Ne.symm hk]

end Bindings

/-! ## Tables -/

/-- Bindings of distinct keys, in the order in which the keys came. -/
structure OrderedTable (α β : Type) where
  toList : List (α × β)
  nodup_keys : (toList.map Prod.fst).Nodup
deriving DecidableEq

namespace OrderedTable

/-- The table without bindings. -/
def empty : OrderedTable α β := ⟨[], List.nodup_nil⟩

instance : Inhabited (OrderedTable α β) := ⟨empty⟩

/-- Binds a key; a key that is bound already keeps its place. -/
def insert (t : OrderedTable α β) (key : α) (value : β) : OrderedTable α β :=
  ⟨Bindings.put key value t.toList, Bindings.nodup_keys_put t.nodup_keys⟩

/-- Binds a key, and gives the value that was bound to it before. -/
def exchange (t : OrderedTable α β) (key : α) (value : β) : Option β × OrderedTable α β :=
  let found := Bindings.exchange key value t.toList
  (found.1, ⟨found.2, Bindings.nodup_keys_exchange t.nodup_keys⟩)

/-- The value bound to a key. -/
def get? (t : OrderedTable α β) (key : α) : Option β := Bindings.find? key t.toList

/-- The keys in the order in which they came. -/
def keys (t : OrderedTable α β) : List α := t.toList.map Prod.fst

/-- The number of bindings. -/
def size (t : OrderedTable α β) : Nat := t.toList.length

/-- True of the table without bindings. -/
def isEmpty (t : OrderedTable α β) : Bool := t.toList.isEmpty

/-- Binds the listed keys one after the other. -/
def insertMany (t : OrderedTable α β) (bindings : List (α × β)) : OrderedTable α β :=
  bindings.foldl (fun t b => t.insert b.1 b.2) t

/-- The table that binds the listed keys one after the other. -/
def ofList (bindings : List (α × β)) : OrderedTable α β := empty.insertMany bindings

/-- Whether two tables bind the same keys to the same values, in whatever order. -/
def agrees [DecidableEq β] (s t : OrderedTable α β) : Bool :=
  s.size == t.size && s.toList.all fun (key, value) => t.get? key == some value

variable (t : OrderedTable α β)

theorem exchange_eq (key : α) (value : β) :
    t.exchange key value = (t.get? key, t.insert key value) := by
  simp [exchange, get?, insert, Bindings.exchange_eq]

theorem toList_insert_of_not_mem {key : α} (value : β) (h : key ∉ t.keys) :
    (t.insert key value).toList = t.toList ++ [(key, value)] :=
  Bindings.put_of_not_mem h

theorem keys_insert_of_mem {key : α} (value : β) (h : key ∈ t.keys) :
    (t.insert key value).keys = t.keys :=
  Bindings.keys_put_of_mem h

@[simp]
theorem get?_insert_self (key : α) (value : β) : (t.insert key value).get? key = some value :=
  Bindings.find?_put_self key value t.toList

theorem get?_insert_of_ne {key k : α} (value : β) (h : k ≠ key) :
    (t.insert key value).get? k = t.get? k :=
  Bindings.find?_put_of_ne value t.toList h

theorem mem_toList_iff {key : α} {value : β} :
    (key, value) ∈ t.toList ↔ t.get? key = some value :=
  (Bindings.find?_eq_some_iff t.nodup_keys).symm

end OrderedTable

end OpcodeAtlas
