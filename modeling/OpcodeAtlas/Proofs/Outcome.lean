import Mathlib.Data.List.Forall2

/-!
# OpcodeAtlas.Proofs.Outcome — chains of steps that may fail

A chain of steps succeeds when every step does, and fails with the fault of the first step that
does not:

* `bind_eq_ok`, `map_eq_ok`, `mapError_eq_ok` — when a chain ends in a value;
* `bind_eq_error` — when it ends in a fault;
* `ok_bind`, `error_bind` — how a chain goes on behind its first step;
* `fault?_bind` — the fault of a chain is that of its first step, or else that of the rest;
* `mapM_eq_ok` — when the same step succeeds on every item of a list.
-/

namespace OpcodeAtlas.Outcome

variable {ε ε' α β : Type}

theorem bind_eq_ok {x : Except ε α} {f : α → Except ε β} {b : β} :
    (x >>= f) = .ok b ↔ ∃ a, x = .ok a ∧ f a = .ok b := by
  cases x <;> simp [bind, Except.bind]

/-- A chain fails in its first step or behind it. -/
theorem bind_eq_error {x : Except ε α} {f : α → Except ε β} {e : ε} :
    (x >>= f) = .error e ↔ x = .error e ∨ ∃ a, x = .ok a ∧ f a = .error e := by
  cases x <;> simp [bind, Except.bind]

theorem map_eq_ok {x : Except ε α} {f : α → β} {b : β} :
    x.map f = .ok b ↔ ∃ a, x = .ok a ∧ f a = b := by
  cases x <;> simp [Except.map]

@[simp]
theorem mapError_eq_ok {x : Except ε α} {f : ε → ε'} {a : α} :
    x.mapError f = .ok a ↔ x = .ok a := by
  cases x <;> simp [Except.mapError]

/-- A chain whose first step succeeds is the rest of the chain. -/
theorem ok_bind {a : α} {f : α → Except ε β} : (Except.ok a >>= f) = f a := rfl

/-- A chain whose first step fails is that failure. -/
theorem error_bind {e : ε} {f : α → Except ε β} : (Except.error e >>= f) = .error e := rfl

/-! ## Faults -/

/-- The fault of a step that fails. -/
def fault? : Except ε α → Option ε
  | .ok _ => none
  | .error e => some e

@[simp]
theorem fault?_eq_some_iff {x : Except ε α} {e : ε} : fault? x = some e ↔ x = .error e := by
  cases x <;> simp [fault?]

@[simp]
theorem fault?_eq_none_iff {x : Except ε α} : fault? x = none ↔ ∃ a, x = .ok a := by
  cases x <;> simp [fault?]

@[simp]
theorem fault?_map {x : Except ε α} {f : α → β} : fault? (x.map f) = fault? x := by
  cases x <;> rfl

@[simp]
theorem fault?_mapError {x : Except ε α} {f : ε → ε'} :
    fault? (x.mapError f) = (fault? x).map f := by
  cases x <;> rfl

/-- If the rest of a chain has one fault for all values of the first step, the chain fails with the
fault of that step or else with the one of the rest. -/
theorem fault?_bind {x : Except ε α} {f : α → Except ε β} {rest : Option ε}
    (h : ∀ a, x = .ok a → fault? (f a) = rest) : fault? (x >>= f) = (fault? x).or rest := by
  cases x with
  | ok a => exact h a rfl
  | error e => rfl

/-- What is made of the value of a step does not add a fault. -/
theorem fault?_bind_pure {x : Except ε α} {f : α → β} :
    fault? (x >>= fun a => pure (f a)) = fault? x := by
  cases x <;> rfl

/-! ## Lists -/

/-- The first finding in a list is that of its first item, or else that of the others. -/
theorem findSome?_cons_or {f : α → Option β} {item : α} {rest : List α} :
    (item :: rest).findSome? f = (f item).or (rest.findSome? f) := by
  rw [List.findSome?_cons]
  cases f item <;> rfl

/-- A step succeeds on a list when it does on every item, and the results stand in its order. -/
theorem mapM_eq_ok {f : α → Except ε β} {items : List α} {results : List β} :
    items.mapM f = .ok results ↔
      List.Forall₂ (fun item result => f item = .ok result) items results := by
  induction items generalizing results with
  | nil =>
    rw [List.mapM_nil, List.forall₂_nil_left_iff]
    constructor
    · intro h
      cases h
      rfl
    · rintro rfl
      rfl
  | cons item rest ih =>
    rw [List.mapM_cons, bind_eq_ok, List.forall₂_cons_left_iff]
    constructor
    · intro h
      rcases h with ⟨first, hfirst, hrest⟩
      rcases bind_eq_ok.1 hrest with ⟨others, hothers, hresults⟩
      cases hresults
      exact ⟨first, others, hfirst, ih.1 hothers, rfl⟩
    · intro h
      rcases h with ⟨first, others, hfirst, hothers, rfl⟩
      exact ⟨first, hfirst, bind_eq_ok.2 ⟨others, ih.2 hothers, rfl⟩⟩

end OpcodeAtlas.Outcome
