import Mathlib.Data.Finset.Card
import OpcodeAtlas.Proofs.Opcode.RoundTrip
import OpcodeAtlas.Proofs.Table.Replay

/-!
# OpcodeAtlas.Proofs.Opcode.Recording — what any run of records comes to

Opcodes are recorded one after the other, and each record gives back the name that its opcode had
before (`OrderedTable.exchangeMany`). One record changes one binding (`OrderedTable.Exchanges`):

* `OrderedTable.getElem?_insert_of_ne` — every other binding keeps its place and its value;
* `OrderedTable.exchanges_exchange` — so a record gives back what a look-up found and moves nothing;
* `OrderedTable.exchangeMany_append` — a run goes on where a shorter run ended;
* `OrderedTable.size_ofList` — there are as many bindings as recorded opcodes;
* `OpcodeMap.recording_exchangeMany` — all of it, for the map at the end of a run and for each of its
  records (`OpcodeMap.Recording`).
-/

namespace OpcodeAtlas

variable {α β : Type} [DecidableEq α]

/-! ## One record -/

/-- A binding of another key stands where it stood. -/
theorem Bindings.getElem?_put_of_ne {key k : α} {value v : β} (bindings : List (α × β))
    (h : k ≠ key) (i : Nat) :
    (put key value bindings)[i]? = some (k, v) ↔ bindings[i]? = some (k, v) := by
  have hnew : some (key, value) ≠ some (k, v) := by
    intro heq
    cases heq
    exact h rfl
  induction bindings generalizing i with
  | nil =>
    cases i with
    | zero => simpa [put] using fun heq _ => h heq.symm
    | succ i => simp [put]
  | cons b rest ih =>
    rcases b with ⟨k', v'⟩
    by_cases hk' : k' = key
    · subst hk'
      rw [put, if_pos rfl]
      cases i with
      | zero => simp [Ne.symm h]
      | succ i => rfl
    · rw [put, if_neg hk']
      cases i with
      | zero => rfl
      | succ i => exact ih i

namespace OrderedTable

theorem getElem?_insert_of_ne (t : OrderedTable α β) {key k : α} {value v : β} (h : k ≠ key)
    (i : Nat) : (t.insert key value).toList[i]? = some (k, v) ↔ t.toList[i]? = some (k, v) :=
  Bindings.getElem?_put_of_ne t.toList h i

/-- The answer of a record and the table behind it, in terms of the table in front of it. -/
structure Exchanges (before : OrderedTable α β) (key : α) (value : β) (answer : Option β)
    (after : OrderedTable α β) : Prop where
  /-- The answer is what a look-up found. -/
  answer_eq : answer = before.get? key
  /-- A look-up now finds the new value. -/
  found : after.get? key = some value
  /-- A bound key stays at its place, and an unbound one comes to stand at the end. -/
  keys_eq : after.keys = if key ∈ before.keys then before.keys else before.keys ++ [key]
  /-- At each place there stands another key with a value if it stood there before. -/
  others : ∀ (i : Nat) (k : α) (v : β), k ≠ key →
    (after.toList[i]? = some (k, v) ↔ before.toList[i]? = some (k, v))

theorem exchanges_exchange (t : OrderedTable α β) (key : α) (value : β) :
    Exchanges t key value (t.exchange key value).1 (t.exchange key value).2 := by
  rw [exchange_eq]
  refine ⟨rfl, get?_insert_self t key value, ?_, fun i k v h => getElem?_insert_of_ne t h i⟩
  by_cases hkey : key ∈ t.keys
  · rw [if_pos hkey]
    exact keys_insert_of_mem t value hkey
  · rw [if_neg hkey]
    simp [keys, toList_insert_of_not_mem t value hkey]

/-! ## A run of records -/

/-- Binds the listed keys one after the other, and gives back what each of them was bound to. -/
def exchangeMany (t : OrderedTable α β) : List (α × β) → List (Option β) × OrderedTable α β
  | [] => ([], t)
  | (key, value) :: rest =>
    let (answer, t) := t.exchange key value
    let (answers, t) := t.exchangeMany rest
    (answer :: answers, t)

theorem exchangeMany_append (t : OrderedTable α β) (front back : List (α × β)) :
    t.exchangeMany (front ++ back) =
      ((t.exchangeMany front).1 ++ ((t.exchangeMany front).2.exchangeMany back).1,
        ((t.exchangeMany front).2.exchangeMany back).2) := by
  induction front generalizing t with
  | nil => rfl
  | cons b rest ih =>
    rcases b with ⟨key, value⟩
    simp only [List.cons_append, exchangeMany, ih]

theorem length_exchangeMany (t : OrderedTable α β) (records : List (α × β)) :
    (t.exchangeMany records).1.length = records.length := by
  induction records generalizing t with
  | nil => rfl
  | cons b rest ih => exact congrArg (· + 1) (ih _)

/-- The table at the end of a run does not depend on the answers. -/
theorem exchangeMany_snd (t : OrderedTable α β) (records : List (α × β)) :
    (t.exchangeMany records).2 = t.insertMany records := by
  induction records generalizing t with
  | nil => rfl
  | cons b rest ih =>
    have hstep : (t.exchange b.1 b.2).2 = t.insert b.1 b.2 := by rw [exchange_eq]
    exact (ih _).trans (congrArg (insertMany · rest) hstep)

/-- In a run, each record answers as it does alone on the table in front of it. -/
theorem exchanges_of_exchangeMany (t : OrderedTable α β) (front : List (α × β)) (key : α) (value : β)
    (back : List (α × β)) :
    ∃ answer, (t.exchangeMany (front ++ (key, value) :: back)).1[front.length]? = some answer ∧
      Exchanges (t.exchangeMany front).2 key value answer
        (t.exchangeMany (front ++ [(key, value)])).2 := by
  have hlength : (t.exchangeMany front).1.length = front.length := length_exchangeMany t front
  refine ⟨((t.exchangeMany front).2.exchange key value).1, ?_, ?_⟩
  · rw [exchangeMany_append, ← hlength, List.getElem?_append_right (Nat.le_refl _), Nat.sub_self]
    rfl
  · rw [exchangeMany_append]
    exact exchanges_exchange (t.exchangeMany front).2 key value

/-- A look-up finds nothing for the keys that are not bound. -/
theorem get?_eq_none_iff (t : OrderedTable α β) {key : α} : t.get? key = none ↔ key ∉ t.keys := by
  have hmem : key ∈ t.keys ↔ ∃ value, t.get? key = some value := by
    simp only [keys, List.mem_map, Prod.exists, exists_and_right, exists_eq_right, mem_toList_iff]
  rw [hmem, ← Option.isSome_iff_exists, Option.not_isSome_iff_eq_none]

/-- There are as many bindings as different keys are listed. -/
theorem size_ofList (records : List (α × β)) :
    (ofList records).size = (records.map Prod.fst).toFinset.card := by
  have hkeys : (ofList records).keys.toFinset = (records.map Prod.fst).toFinset := by
    rw [keys_ofList]
    ext key
    rw [List.mem_toFinset, List.mem_toFinset, List.mem_eraseDups]
  have hnodup : (ofList records).keys.Nodup := (ofList records).nodup_keys
  rw [← hkeys, List.toFinset_card_of_nodup hnodup, keys, List.length_map, size]

end OrderedTable

namespace OpcodeMap

open OrderedTable (Exchanges empty exchangeMany)

/-- The map that a run of records from the empty map leaves behind, and what the records answered. -/
structure Recording (records : List (Int × String)) (answers : List (Option String))
    (m : OpcodeMap) : Prop where
  /-- Each recorded opcode stands once, in the order of the first records, with its last name. -/
  listed : LeftBy records m.toList
  found : ∀ opcode name, m.get? opcode = some name ↔ WrittenLast records opcode name
  missing : ∀ opcode, m.get? opcode = none ↔ opcode ∉ records.map Prod.fst
  size_eq : m.size = (records.map Prod.fst).toFinset.card
  sorted_perm : m.sorted.Perm m.toList
  sorted_ascending : m.sorted.Pairwise fun b b' => b.1 < b'.1
  answers_length : answers.length = records.length
  /-- Each record answered with the name in the map before it, and changed its own binding only. -/
  exchanged : ∀ front opcode name back, records = front ++ (opcode, name) :: back →
    ∃ answer, answers[front.length]? = some answer ∧
      Exchanges (empty.exchangeMany front).2 opcode name answer
        (empty.exchangeMany (front ++ [(opcode, name)])).2

/-- Whatever is recorded, in whatever order and however often, the map lists each recorded opcode
once, in the order of the first records; a look-up finds the name of the last record of an opcode,
and nothing for an opcode that was not recorded; there are as many bindings as different opcodes;
and sorting puts the same bindings in strictly ascending order. Each record gave back what a look-up
found just before it and left every other opcode at its place with its name. -/
theorem recording_exchangeMany (records : List (Int × String)) :
    Recording records (empty.exchangeMany records).1 (empty.exchangeMany records).2 := by
  rw [OrderedTable.exchangeMany_snd]
  have hfound : ∀ opcode name, OrderedTable.get? (empty.insertMany records) opcode = some name ↔
      WrittenLast records opcode name :=
    fun opcode name => OrderedTable.get?_ofList_eq_some_iff_writtenLast
  refine ⟨OrderedTable.leftBy_ofList records, hfound, ?_, OrderedTable.size_ofList records,
    ordered_perm _ true, pairwise_sorted _, OrderedTable.length_exchangeMany empty records, ?_⟩
  · intro opcode
    have hnone : (OrderedTable.ofList records).get? opcode = none ↔
        opcode ∉ (OrderedTable.ofList records).keys :=
      OrderedTable.get?_eq_none_iff _
    rw [OrderedTable.keys_ofList, List.mem_eraseDups] at hnone
    exact hnone
  · rintro front opcode name back rfl
    exact OrderedTable.exchanges_of_exchangeMany empty front opcode name back

/-- The third record gives back the name of the first one and replaces it at its place. -/
example : let run := (empty : OpcodeMap).exchangeMany [(5, "Jump"), (2, "Call"), (5, "Return")]
    run.1 = [none, none, some "Jump"] ∧ run.2.toList = [(5, "Return"), (2, "Call")] := by decide

end OpcodeMap

end OpcodeAtlas
