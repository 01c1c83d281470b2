import Mathlib.Data.List.Dedup
import Mathlib.Data.Set.Card
import OpcodeAtlas.Proofs.Json.Part
import OpcodeAtlas.Proofs.MapFile.Field
import OpcodeAtlas.Proofs.MapFile.SlotNames
import OpcodeAtlas.Proofs.Text.ByteOrder

/-!
# OpcodeAtlas.Proofs.MapFile.NameTable — the names of the slots are the inverse of the field `map`

The field `map` gives names their slots (`Gives`), and the names of the slots are the inverse of
that (`Inverts`): where several names have one slot, the greatest of them stays.

* `exists_bindings_iff` — an object of integers is one that bindings make;
* `nameSlots_eq_error_iff` — the first slot that cannot be one is refused;
* `inverts_of_names` — names that are there are the inverse;
* `names_inverts` — when they are there, what they are, what is said if they are not, and how all
  this is read off the text.
-/

namespace OpcodeAtlas.MapFile

open Json (lastValue?)

/-- The object gives the name this slot. Where it holds a name several times, the last value
counts. -/
def Gives (members : List (String × Json.Value)) (name : String) (slot : Int) : Prop :=
  lastValue? members name = some (.number (.integer slot))

/-- The names of slots are the inverse of what the object gives. -/
structure Inverts (members : List (String × Json.Value)) (names : SlotNames) : Prop where
  /-- A slot has the greatest of its names, compared byte by byte. -/
  greatest : ∀ slot name, names.get? slot = some name ↔
    Gives members name slot ∧ ∀ other, Gives members other slot → Text.utf8 other ≤ Text.utf8 name
  /-- There are as many names as there are slots given. -/
  size : names.size = {slot | ∃ name, Gives members name slot}.ncard
  negative : ∀ slot < 0, names.get? slot = none

variable {file : MapFile} {members : List (String × Json.Value)} {bindings : List (String × Int)}

theorem isSlot_iff {slot : Int} : isSlot slot = true ↔ 0 ≤ slot ∧ slot ≤ 2147483647 := by
  simp only [isSlot, Bool.and_eq_true, decide_eq_true_eq]
  omega

theorem fits_i64_iff {n : Int} :
    IntegerKind.i64.fits n = true ↔ -0x8000_0000_0000_0000 ≤ n ∧ n < 0x8000_0000_0000_0000 := by
  rw [IntegerKind.fits, Bool.and_eq_true]
  exact Iff.and decide_eq_true_iff decide_eq_true_iff

/-! ## The bindings of an object -/

/-- Values that are all integers with a property are those of bindings. -/
theorem exists_bindings_iff {members : List (String × Json.Value)} {P : Int → Prop} :
    (∃ bindings : List (String × Int), members = bindings.map memberOf ∧ ∀ b ∈ bindings, P b.2) ↔
      ∀ m ∈ members, ∃ slot, m.2 = .number (.integer slot) ∧ P slot := by
  constructor
  · rintro ⟨bindings, rfl, hall⟩ m hm
    rcases List.mem_map.1 hm with ⟨b, hb, rfl⟩
    exact ⟨b.2, rfl, hall b hb⟩
  · intro h
    induction members with
    | nil => exact ⟨[], rfl, by simp⟩
    | cons m rest ih =>
      rcases List.forall_mem_cons.1 h with ⟨⟨slot, hvalue, hslot⟩, hrest⟩
      rcases ih hrest with ⟨bindings, rfl, hall⟩
      refine ⟨(m.1, slot) :: bindings, ?_, List.forall_mem_cons.2 ⟨hslot, hall⟩⟩
      rw [List.map_cons, memberOf, ← hvalue]

/-- What the bindings of an object bind is what the object gives. -/
theorem mem_bindings_iff (hmembers : Json.canonicalMembers members = bindings.map memberOf)
    {name : String} {slot : Int} : (name, slot) ∈ bindings ↔ Gives members name slot := by
  rw [← mem_map_memberOf_iff, ← hmembers, Json.mem_canonicalMembers_iff, Gives]

/-- The names are there when the field is an object of integers that can be slots. -/
theorem names_eq_ok_iff {names : SlotNames} :
    file.names = .ok names ↔ ∃ (members : List (String × Json.Value))
      (bindings : List (String × Int)), file.field? .map = some (.object members) ∧
      Json.canonicalMembers members = bindings.map memberOf ∧
      (∀ b ∈ bindings, isSlot b.2 = true) ∧ names = .ofList (bindings.map Prod.swap) := by
  rw [MapFile.names, Outcome.bind_eq_ok]
  simp only [required_eq_ok_iff, integersOf_eq_ok_iff, nameSlots_eq_ok_iff]
  constructor
  · rintro ⟨bindings, ⟨v, hfield, members, rfl, hmembers, -⟩, hslots, rfl⟩
    exact ⟨members, bindings, hfield, hmembers, hslots, rfl⟩
  · rintro ⟨members, bindings, hfield, hmembers, hslots, rfl⟩
    refine ⟨bindings, ⟨_, hfield, members, rfl, hmembers, fun b hb => ?_⟩, hslots, rfl⟩
    have hslot := isSlot_iff.1 (hslots b hb)
    exact fits_i64_iff.2 (by omega)

/-! ## Names that are there -/

theorem mem_keys_ofList {slot : Int} :
    slot ∈ (OrderedTable.ofList (bindings.map Prod.swap)).keys ↔
      ∃ name, (name, slot) ∈ bindings := by
  rw [OrderedTable.keys_ofList, List.mem_eraseDups]
  simp

theorem inverts_of_names {names : SlotNames} (h : file.names = .ok names)
    (hfield : file.field? .map = some (.object members)) : Inverts members names := by
  rcases names_eq_ok_iff.1 h with ⟨members', bindings, hfield', hmembers, hslots, hnames⟩
  rw [hfield] at hfield'
  cases hfield'
  refine ⟨fun slot name => ?_, ?_, fun slot hneg => ?_⟩
  · rw [names_get?_eq_some_iff h]
    simp only [NamesSlot, hfield, Option.some.injEq, Json.Value.object.injEq, exists_eq_left',
      Json.mem_canonicalMembers_iff, Text.utf8_le_utf8_iff, Gives]
  · have hset : {slot | ∃ name, Gives members name slot} = (names.keys.toFinset : Set Int) := by
      ext slot
      simp [hnames, mem_keys_ofList, mem_bindings_iff hmembers]
    have hnodup : names.keys.Nodup := names.nodup_keys
    rw [hset, Set.ncard_coe_finset, List.toFinset_card_of_nodup hnodup, OrderedTable.keys,
      List.length_map, OrderedTable.size]
  · cases hname : names.get? slot with
    | none => rfl
    | some name =>
      -- A slot with a name is one of those that were accepted.
      rcases (names_get?_eq_some_iff h).1 hname with ⟨members', hfield', hgives, -⟩
      rw [hfield, Option.some.injEq, Json.Value.object.injEq] at hfield'
      subst hfield'
      rw [hmembers, mem_map_memberOf_iff] at hgives
      have hslot := isSlot_iff.1 (hslots _ hgives)
      omega

/-- Where no two names have one slot, the names of the slots are just what the object gives. -/
theorem Inverts.of_injective {names : SlotNames} (h : Inverts members names)
    (hinjective : ∀ name name' slot, Gives members name slot → Gives members name' slot →
      name = name') (slot : Int) (name : String) :
    names.get? slot = some name ↔ Gives members name slot := by
  rw [h.greatest]
  refine ⟨And.left, fun hgives => ⟨hgives, fun other hother => ?_⟩⟩
  rw [hinjective other name slot hother hgives]
  exact List.le_refl _

/-! ## Names that are refused -/

/-- The first slot that cannot be one is refused, with the name that it was given to. -/
theorem nameSlots_eq_error_iff {names : SlotNames} {e : MapFileError} :
    nameSlots names bindings = .error e ↔ ∃ front name slot back,
      bindings = front ++ (name, slot) :: back ∧ (∀ b ∈ front, isSlot b.2 = true) ∧
      isSlot slot = false ∧ e = .schema .map (.slotRange slot name) := by
  induction bindings generalizing names with
  | nil => simp [nameSlots]
  | cons b rest ih =>
    rcases b with ⟨first, s⟩
    rw [nameSlots]
    by_cases hs : isSlot s = true
    · rw [if_pos hs, ih]
      constructor
      · rintro ⟨front, name, slot, back, rfl, hfront, hslot, rfl⟩
        exact ⟨(first, s) :: front, name, slot, back, rfl, List.forall_mem_cons.2 ⟨hs, hfront⟩,
          hslot, rfl⟩
      · rintro ⟨front, name, slot, back, hsplit, hfront, hslot, rfl⟩
        cases front with
        | nil =>
          cases hsplit
          rw [hs] at hslot
          cases hslot
        | cons b front =>
          cases hsplit
          exact ⟨front, name, slot, back, rfl, (List.forall_mem_cons.1 hfront).2, hslot, rfl⟩
    · rw [if_neg hs]
      constructor
      · rintro ⟨⟩
        exact ⟨[], first, s, rest, rfl, by simp, Bool.eq_false_iff.2 hs, rfl⟩
      · rintro ⟨front, name, slot, back, hsplit, hfront, hslot, rfl⟩
        cases front with
        | nil =>
          cases hsplit
          rfl
        | cons b front =>
          cases hsplit
          exact absurd (hfront _ List.mem_cons_self) hs

/-- Where all values are integers of 64 bits, the least name with a slot out of range is blamed. -/
theorem least_of_names_error {e : MapFileError} (h : file.names = .error e)
    (hfield : file.field? .map = some (.object members))
    (hintegers : ∀ name v, lastValue? members name = some v → ∃ n : Int, v = .number (.integer n) ∧
      -0x8000_0000_0000_0000 ≤ n ∧ n < 0x8000_0000_0000_0000) :
    ∃ name slot, Gives members name slot ∧ ¬(0 ≤ slot ∧ slot ≤ 2147483647) ∧
      (∀ other n, Gives members other n → ¬(0 ≤ n ∧ n ≤ 2147483647) → name ≤ other) ∧
      e = .schema .map (.slotRange slot name) := by
  have hbindings : ∃ bindings : List (String × Int),
      Json.canonicalMembers members = bindings.map memberOf ∧
        ∀ b ∈ bindings, IntegerKind.i64.fits b.2 = true := by
    rw [exists_bindings_iff (P := fun n => IntegerKind.i64.fits n = true)]
    rintro ⟨name, v⟩ hmem
    simp only [fits_i64_iff]
    exact hintegers name v (Json.mem_canonicalMembers_iff.1 hmem)
  rcases hbindings with ⟨bindings, hmembers, hfits⟩
  have hrequired : file.required .map integersOf = .ok bindings :=
    required_eq_ok_iff.2 ⟨_, hfield, integersOf_eq_ok_iff.2 ⟨members, rfl, hmembers, hfits⟩⟩
  rw [MapFile.names, hrequired, Outcome.ok_bind, nameSlots_eq_error_iff] at h
  rcases h with ⟨front, name, slot, back, rfl, hfront, hslot, rfl⟩
  have hgives : ∀ {name slot}, (name, slot) ∈ front ++ _ :: back ↔ Gives members name slot :=
    mem_bindings_iff hmembers
  have hascending := pairwise_bindings hmembers
  refine ⟨name, slot, hgives.1 (by simp), ?_, fun other n hother hrange => ?_, rfl⟩
  · rw [← isSlot_iff]
    exact Bool.eq_false_iff.1 hslot
  · -- No slot in front of the refused one is out of range, and the names behind it are greater.
    rw [← isSlot_iff] at hrange
    rcases List.mem_append.1 (hgives.2 hother) with hbefore | hbehind
    · exact absurd (hfront _ hbefore) hrange
    · rcases List.mem_cons.1 hbehind with heq | hbehind
      · exact le_of_eq (Prod.mk.inj heq).1.symm
      · have hless := (List.pairwise_cons.1 (List.pairwise_append.1 hascending).2.1).1 _ hbehind
        exact le_of_lt hless

/-! ## The names of a file -/

theorem field?_eq_object_iff :
    file.field? .map = some (.object members) ↔
      file.members.lookup "map" = some (.object members) := by
  rw [field?_eq_some_iff]
  exact and_iff_left nofun

/-- The names are there when every value of the object is an integer that can be a slot. -/
theorem exists_names_iff :
    (∃ names, file.names = .ok names) ↔
      ∃ members, file.members.lookup "map" = some (.object members) ∧
        ∀ name v, lastValue? members name = some v →
          ∃ slot : Int, v = .number (.integer slot) ∧ 0 ≤ slot ∧ slot ≤ 2147483647 := by
  have hslots : ∀ members : List (String × Json.Value),
      (∃ bindings : List (String × Int), Json.canonicalMembers members = bindings.map memberOf ∧
        ∀ b ∈ bindings, isSlot b.2 = true) ↔
      ∀ name v, lastValue? members name = some v →
        ∃ slot : Int, v = .number (.integer slot) ∧ 0 ≤ slot ∧ slot ≤ 2147483647 := by
    intro members
    rw [exists_bindings_iff (P := fun slot => isSlot slot = true), Prod.forall]
    simp only [Json.mem_canonicalMembers_iff, isSlot_iff]
  simp only [names_eq_ok_iff, field?_eq_object_iff]
  constructor
  · rintro ⟨names, members, bindings, hfield, hmembers, hall, rfl⟩
    exact ⟨members, hfield, (hslots members).1 ⟨bindings, hmembers, hall⟩⟩
  · rintro ⟨members, hfield, hvalues⟩
    rcases (hslots members).2 hvalues with ⟨bindings, hmembers, hall⟩
    exact ⟨_, members, bindings, hfield, hmembers, hall, rfl⟩

/-- Names come from the last values of the field `map` and from nothing else. -/
theorem names_congr {other : MapFile} {others : List (String × Json.Value)}
    (hfield : file.field? .map = some (.object members))
    (hother : other.field? .map = some (.object others))
    (h : ∀ name, lastValue? members name = lastValue? others name) : file.names = other.names := by
  rw [MapFile.names, MapFile.names, required, required, optional, optional, hfield, hother]
  simp only [integersOf, Json.canonicalMembers_congr h]

/-- The names of the slots are there exactly if the field `map` is an object of slots, and are the
inverse of it, whatever the order of its members. Otherwise the field is at fault, through the least
name with a slot out of range if nothing but integers stands there. A part of a document is an
integer when it is the decimal text of one, and the members of a file are the last ones of the
document with their keys. -/
theorem names_inverts (file : MapFile) :
    ((∃ names, file.names = .ok names) ↔
      ∃ members, file.members.lookup "map" = some (.object members) ∧
        ∀ name v, lastValue? members name = some v →
          ∃ slot : Int, v = .number (.integer slot) ∧ 0 ≤ slot ∧ slot ≤ 2147483647) ∧
    (∀ names members, file.names = .ok names →
      file.members.lookup "map" = some (.object members) → Inverts members names ∧
        ((∀ name name' slot, Gives members name slot → Gives members name' slot → name = name') →
          ∀ slot name, names.get? slot = some name ↔ Gives members name slot)) ∧
    (∀ (other : MapFile) (members others : List (String × Json.Value)),
      file.members.lookup "map" = some (.object members) →
      other.members.lookup "map" = some (.object others) →
      (∀ name, lastValue? members name = lastValue? others name) → file.names = other.names) ∧
    (∀ e, file.names = .error e → ∃ fault, e = .schema .map fault ∧
      ∀ members, file.members.lookup "map" = some (.object members) →
        (∀ name v, lastValue? members name = some v → ∃ n : Int, v = .number (.integer n) ∧
          -0x8000_0000_0000_0000 ≤ n ∧ n < 0x8000_0000_0000_0000) →
        ∃ name slot, Gives members name slot ∧ ¬(0 ≤ slot ∧ slot ≤ 2147483647) ∧
          (∀ other n, Gives members other n → ¬(0 ≤ n ∧ n ≤ 2147483647) →
            Text.utf8 name ≤ Text.utf8 other) ∧
          fault.message = s!"slot {slot} for {name} is not a valid vtable index") ∧
    (∀ bound depth feed rest n, Json.value bound depth feed = .ok (.number (.integer n), rest) ↔
      ∃ blanks, (∀ b ∈ blanks, Json.isBlankByte b = true) ∧
        feed = Json.Feed.ofBytes (blanks ++ Json.decimal n) ++ rest ∧ Json.EndsNumber rest ∧
        Json.Fits n) ∧
    ∀ bytes document, Json.document (Json.withoutComments bytes) = .ok (.object document) →
      ∃ written, ofBytes bytes = .ok written ∧
        ∀ key, written.members.lookup key = lastValue? document key := by
  refine ⟨exists_names_iff, fun names members hnames hfield => ?_,
    fun other members others hfield hother => ?_, fun e herror => ?_,
    fun _ _ _ _ _ => Json.value_eq_integer_iff, fun _ _ => exists_ofBytes_of_object⟩
  · have hinverts := inverts_of_names hnames (field?_eq_object_iff.2 hfield)
    exact ⟨hinverts, hinverts.of_injective⟩
  · exact names_congr (field?_eq_object_iff.2 hfield) (field?_eq_object_iff.2 hother)
  · rcases schema_of_names herror with ⟨fault, rfl⟩
    refine ⟨fault, rfl, fun members hfield hintegers => ?_⟩
    rcases least_of_names_error herror (field?_eq_object_iff.2 hfield) hintegers with
      ⟨name, slot, hgives, hrange, hleast, hfault⟩
    cases hfault
    refine ⟨name, slot, hgives, hrange, fun other n hother hn => ?_, rfl⟩
    exact Text.utf8_le_utf8_iff.2 (hleast other n hother hn)

/-- Of two names with one slot the greater stays, though the other is written last. -/
theorem names_inverts_shared :
    ∃ names, (MapFile.mk [("map", .object [("b", .number (.integer 1)),
      ("a", .number (.integer 1))])]).names = .ok names ∧ names.get? 1 = some "b" := by
  let members : List (String × Json.Value) :=
    [("b", .number (.integer 1)), ("a", .number (.integer 1))]
  have hmem : ∀ name v, lastValue? members name = some v ↔ (name, v) ∈ members := fun _ _ =>
    Json.lastValue?_eq_some_iff_mem (by decide)
  have hvalues : ∀ name v, lastValue? members name = some v →
      ∃ slot : Int, v = .number (.integer slot) ∧ 0 ≤ slot ∧ slot ≤ 2147483647 := by
    intro name v hv
    simp only [hmem, members, List.mem_cons, Prod.mk.injEq, List.not_mem_nil, or_false] at hv
    rcases hv with ⟨-, rfl⟩ | ⟨-, rfl⟩ <;> exact ⟨1, rfl, by decide⟩
  rcases names_inverts ⟨[("map", .object members)]⟩ with ⟨hiff, hinverts, -⟩
  rcases hiff.2 ⟨members, rfl, hvalues⟩ with ⟨names, hnames⟩
  refine ⟨names, hnames, ((hinverts names members hnames rfl).1.greatest 1 "b").2 ⟨rfl, ?_⟩⟩
  intro other hother
  rw [Text.utf8_le_utf8_iff]
  simp only [Gives, hmem, members, List.mem_cons, Prod.mk.injEq, and_true, List.not_mem_nil,
    or_false] at hother
  rcases hother with rfl | rfl <;> decide

end OpcodeAtlas.MapFile
