import OpcodeAtlas.MapFile.Basic
import OpcodeAtlas.Proofs.Json.Canonical
import OpcodeAtlas.Proofs.Outcome
import OpcodeAtlas.Proofs.Table.LastBinding

/-!
# OpcodeAtlas.Proofs.MapFile.SlotNames — the name that a map file gives a slot

The field `map` of a map file binds names to slots. Seen from the slots, each has the greatest of
the names that are bound to it (`MapFile.NamesSlot`).

* `integersOf_eq_ok_iff` — a table of integers is an object whose members are integers of 64 bits;
* `nameSlots_eq_ok_iff` — naming slots one after the other succeeds when all of them can be slots,
  and is then one table of the swapped bindings;
* `find?_swapped_iff` — of names in descending order the first with a slot is its greatest;
* `names_get?_eq_some_iff` — the names of the slots are those that the file gives them.
-/

namespace OpcodeAtlas.MapFile

/-- The field `map` of the file gives the slot to the name, and to no greater one. -/
def NamesSlot (file : MapFile) (slot : Int) (name : String) : Prop :=
  ∃ members, file.field? .map = some (.object members) ∧
    (name, Json.Value.number (.integer slot)) ∈ Json.canonicalMembers members ∧
    ∀ other, (other, Json.Value.number (.integer slot)) ∈ Json.canonicalMembers members →
      other ≤ name

/-! ## Reading the bindings -/

theorem integerOf_eq_ok_iff {kind : IntegerKind} {v : Json.Value} {n : Int} :
    integerOf kind v = .ok n ↔ v = .number (.integer n) ∧ kind.fits n = true := by
  constructor
  · intro h
    unfold integerOf integerOfNumber at h
    split at h
    · split at h
      · split at h
        · cases h
          exact ⟨rfl, ‹_›⟩
        · cases h
      · cases h
    · cases h
  · intro h
    rcases h with ⟨rfl, hfits⟩
    exact if_pos hfits

/-- The member that binds a name to a slot. -/
def memberOf (b : String × Int) : String × Json.Value := (b.1, .number (.integer b.2))

/-- A member is read as a binding when it is the member that makes the binding. -/
theorem binding_eq_ok_iff {m : String × Json.Value} {b : String × Int} :
    (integerOf .i64 m.2).map (m.1, ·) = .ok b ↔
      m = memberOf b ∧ IntegerKind.i64.fits b.2 = true := by
  rw [Outcome.map_eq_ok]
  constructor
  · intro h
    rcases h with ⟨n, hn, rfl⟩
    rcases integerOf_eq_ok_iff.1 hn with ⟨hvalue, hfits⟩
    exact ⟨Prod.ext rfl hvalue, hfits⟩
  · intro h
    rcases h with ⟨rfl, hfits⟩
    exact ⟨b.2, integerOf_eq_ok_iff.2 ⟨rfl, hfits⟩, rfl⟩

/-- Members are read as bindings, one by one, when they are the members that make the bindings. -/
theorem forall₂_memberOf_iff {members : List (String × Json.Value)}
    {bindings : List (String × Int)} :
    List.Forall₂ (fun m b => m = memberOf b ∧ IntegerKind.i64.fits b.2 = true) members bindings ↔
      members = bindings.map memberOf ∧ ∀ b ∈ bindings, IntegerKind.i64.fits b.2 = true := by
  induction bindings generalizing members with
  | nil => simp
  | cons b rest ih =>
    rw [List.forall₂_cons_right_iff]
    simp only [ih, List.map_cons, List.forall_mem_cons]
    constructor
    · intro h
      rcases h with ⟨m, others, ⟨rfl, hfits⟩, ⟨rfl, hrest⟩, rfl⟩
      exact ⟨rfl, hfits, hrest⟩
    · intro h
      rcases h with ⟨rfl, hfits, hrest⟩
      exact ⟨_, _, ⟨rfl, hfits⟩, ⟨rfl, hrest⟩, rfl⟩

theorem integersOf_eq_ok_iff {v : Json.Value} {bindings : List (String × Int)} :
    integersOf v = .ok bindings ↔ ∃ members, v = .object members ∧
      Json.canonicalMembers members = bindings.map memberOf ∧
      ∀ b ∈ bindings, IntegerKind.i64.fits b.2 = true := by
  cases v with
  | object members =>
    simp only [integersOf, Outcome.mapM_eq_ok, binding_eq_ok_iff, forall₂_memberOf_iff,
      Json.Value.object.injEq]
    constructor
    · intro h
      exact ⟨members, rfl, h⟩
    · intro h
      rcases h with ⟨_, rfl, h⟩
      exact h
  | _ => simp [integersOf]

/-- The members that bindings make hold a name with a slot when the bindings do. -/
theorem mem_map_memberOf_iff {bindings : List (String × Int)} {name : String} {slot : Int} :
    (name, Json.Value.number (.integer slot)) ∈ bindings.map memberOf ↔
      (name, slot) ∈ bindings := by
  rw [List.mem_map]
  constructor
  · intro h
    rcases h with ⟨⟨name', slot'⟩, hb, heq⟩
    simp only [memberOf, Prod.mk.injEq, Json.Value.number.injEq, Json.Number.integer.injEq] at heq
    rcases heq with ⟨rfl, rfl⟩
    exact hb
  · intro hb
    exact ⟨_, hb, rfl⟩

/-- The bindings of an object stand by ascending name. -/
theorem pairwise_bindings {members : List (String × Json.Value)} {bindings : List (String × Int)}
    (hmembers : Json.canonicalMembers members = bindings.map memberOf) :
    bindings.Pairwise fun b b' => b.1 < b'.1 := by
  have hsorted := Json.pairwise_canonicalMembers members
  rw [hmembers, List.pairwise_map] at hsorted
  exact hsorted

/-- A required field succeeds when it is there and can be converted. -/
theorem required_eq_ok_iff {α : Type} {file : MapFile} {field : MapField}
    {convert : Json.Value → Except Mismatch α} {x : α} :
    file.required field convert = .ok x ↔
      ∃ v, file.field? field = some v ∧ convert v = .ok x := by
  rw [required, Outcome.bind_eq_ok, optional]
  cases hfield : file.field? field with
  | none =>
    constructor
    · intro h
      rcases h with ⟨_, hnone, hthrow⟩
      cases hnone
      cases hthrow
    · intro h
      rcases h with ⟨_, hv, -⟩
      cases hv
  | some v =>
    simp only [Outcome.map_eq_ok, Outcome.mapError_eq_ok, Option.some.injEq]
    constructor
    · intro h
      rcases h with ⟨_, ⟨y, hconvert, rfl⟩, hreturn⟩
      cases hreturn
      exact ⟨v, rfl, hconvert⟩
    · intro h
      rcases h with ⟨_, rfl, hconvert⟩
      exact ⟨some x, ⟨x, hconvert, rfl⟩, rfl⟩

/-! ## Naming the slots -/

theorem nameSlots_eq_ok_iff {names result : SlotNames} {bindings : List (String × Int)} :
    nameSlots names bindings = .ok result ↔
      (∀ b ∈ bindings, isSlot b.2 = true) ∧ result = names.insertMany (bindings.map Prod.swap) := by
  induction bindings generalizing names with
  | nil =>
    constructor
    · intro h
      cases h
      exact ⟨List.forall_mem_nil _, rfl⟩
    · intro h
      rcases h with ⟨-, rfl⟩
      rfl
  | cons b rest ih =>
    rcases b with ⟨name, slot⟩
    rw [nameSlots]
    by_cases hslot : isSlot slot = true
    · rw [if_pos hslot, ih]
      simp [hslot, OrderedTable.insertMany]
    · rw [if_neg hslot]
      simp [hslot]

/-- Of names in descending order, the first with a slot is the greatest with it. -/
theorem find?_swapped_iff {bindings : List (String × Int)}
    (hdescending : bindings.Pairwise fun b b' => b'.1 < b.1) {slot : Int} {name : String} :
    Bindings.find? slot (bindings.map Prod.swap) = some name ↔
      (name, slot) ∈ bindings ∧ ∀ other, (other, slot) ∈ bindings → other ≤ name := by
  induction bindings with
  | nil => simp [Bindings.find?]
  | cons b rest ih =>
    rcases b with ⟨first, s⟩
    rcases List.pairwise_cons.1 hdescending with ⟨hfirst, hrest⟩
    have hstep : Bindings.find? slot (((first, s) :: rest).map Prod.swap) =
        if s = slot then some first else Bindings.find? slot (rest.map Prod.swap) := rfl
    rw [hstep]
    -- The first binding decides its own slot, and no greater name follows it.
    by_cases hs : s = slot
    · subst hs
      rw [if_pos rfl, Option.some.injEq]
      constructor
      · rintro rfl
        refine ⟨List.mem_cons_self, fun other hother => ?_⟩
        rcases List.mem_cons.1 hother with heq | hother
        · exact le_of_eq (Prod.mk.inj heq).1
        · exact le_of_lt (hfirst _ hother)
      · intro h
        rcases h with ⟨hmem, hgreatest⟩
        rcases List.mem_cons.1 hmem with heq | hmem
        · exact (Prod.mk.inj heq).1.symm
        · have hle := hgreatest first List.mem_cons_self
          exact absurd (hfirst _ hmem) (not_lt_of_ge hle)
    · rw [if_neg hs, ih hrest]
      have hmem : ∀ n, (n, slot) ∈ (first, s) :: rest ↔ (n, slot) ∈ rest := by
        intro n
        simp only [List.mem_cons, Prod.mk.injEq, Ne.symm hs, and_false, false_or]
      simp only [hmem]

/-- The names of the slots are those that the file gives them. -/
theorem names_get?_eq_some_iff {file : MapFile} {names : SlotNames} (h : file.names = .ok names)
    {slot : Int} {name : String} :
    names.get? slot = some name ↔ file.NamesSlot slot name := by
  rcases Outcome.bind_eq_ok.1 h with ⟨bindings, hrequired, hnamed⟩
  rcases required_eq_ok_iff.1 hrequired with ⟨v, hfield, hintegers⟩
  rcases integersOf_eq_ok_iff.1 hintegers with ⟨members, rfl, hmembers, -⟩
  rcases nameSlots_eq_ok_iff.1 hnamed with ⟨-, rfl⟩
  -- The last binding of a slot is the one with the greatest name, as names ascend.
  have hlast : (OrderedTable.empty.insertMany (bindings.map Prod.swap)).get? slot =
      Bindings.find? slot (bindings.reverse.map Prod.swap) := by
    rw [List.map_reverse]
    exact OrderedTable.get?_ofList _ _
  have hdescending : bindings.reverse.Pairwise fun b b' => b'.1 < b.1 :=
    List.pairwise_reverse.2 (pairwise_bindings hmembers)
  rw [hlast, find?_swapped_iff hdescending]
  simp only [List.mem_reverse, ← mem_map_memberOf_iff, ← hmembers]
  constructor
  · intro h
    rcases h with ⟨hname, hgreatest⟩
    exact ⟨members, hfield, hname, hgreatest⟩
  · intro h
    rcases h with ⟨members', hfield', hname, hgreatest⟩
    rw [hfield] at hfield'
    cases hfield'
    exact ⟨hname, hgreatest⟩

end OpcodeAtlas.MapFile
