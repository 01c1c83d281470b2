import OpcodeAtlas.Proofs.MapFile.NameTable

/-!
# OpcodeAtlas.Proofs.MapFile.RepeatedSlot — a slot that the text of a map file names twice

The text of a map file lists names with their slots (`Lists`). Where it gives one slot to several
names, the greatest name is kept, and not the one that stands last in the text (`KeepsLast`): an
object is a table by ascending key before its names are turned around.

* `exists_ofText_of_lists` — the file that such a text holds;
* `names_of_lists` — the names that are kept, when the last one is among them, and that the order of
  the text makes no difference;
* `not_keepsLast_descending` — a text whose last name is dropped.
-/

namespace OpcodeAtlas.MapFile

open Json (lastValue?)

/-- The text is that of a map file whose field `map` lists the bindings in this order, each name
once and with a slot that can be one. -/
structure Lists (text : String) (bindings : List (String × Int)) : Prop where
  holds : ∃ document,
    Json.document (Json.withoutComments (Text.utf8 text)) = .ok (.object document) ∧
    lastValue? document "map" = some (.object (bindings.map memberOf))
  distinct : (bindings.map Prod.fst).Nodup
  valid : ∀ b ∈ bindings, 0 ≤ b.2 ∧ b.2 ≤ 2147483647

/-- Of the names of the slot this is the one that stands last. -/
def StandsLast (bindings : List (String × Int)) (name : String) (slot : Int) : Prop :=
  ∃ front back, bindings = front ++ (name, slot) :: back ∧ ∀ other, (other, slot) ∉ back

/-- Whatever the text lists, of the names of each slot it keeps the one that stands last. -/
def KeepsLast (text : String) : Prop :=
  ∀ bindings, Lists text bindings → ∃ file names, ofText text = .ok file ∧
    file.names = .ok names ∧ ∀ slot name, StandsLast bindings name slot →
      names.get? slot = some name

variable {text : String} {bindings : List (String × Int)}

theorem StandsLast.mem {name : String} {slot : Int} (h : StandsLast bindings name slot) :
    (name, slot) ∈ bindings := by
  rcases h with ⟨front, back, rfl, -⟩
  simp

/-- The last values of distinct names are those that they are bound to. -/
theorem lastValue?_map_memberOf_iff (hdistinct : (bindings.map Prod.fst).Nodup) {name : String}
    {v : Json.Value} :
    lastValue? (bindings.map memberOf) name = some v ↔
      ∃ slot : Int, v = .number (.integer slot) ∧ (name, slot) ∈ bindings := by
  have hkeys : ((bindings.map memberOf).map Prod.fst).Nodup := by
    rw [List.map_map]
    exact hdistinct
  rw [Json.lastValue?_eq_some_iff_mem hkeys, List.mem_map]
  constructor
  · rintro ⟨⟨name', slot⟩, hb, heq⟩
    cases heq
    exact ⟨slot, rfl, hb⟩
  · rintro ⟨slot, rfl, hb⟩
    exact ⟨_, hb, rfl⟩

theorem Lists.gives_iff (h : Lists text bindings) {name : String} {slot : Int} :
    Gives (bindings.map memberOf) name slot ↔ (name, slot) ∈ bindings := by
  rw [Gives, lastValue?_map_memberOf_iff h.distinct]
  constructor
  · rintro ⟨slot', heq, hb⟩
    cases heq
    exact hb
  · intro hb
    exact ⟨slot, rfl, hb⟩

/-- The file of a text that lists bindings, with its field `map`. -/
theorem exists_ofText_of_lists (h : Lists text bindings) :
    ∃ file, ofText text = .ok file ∧
      file.members.lookup "map" = some (.object (bindings.map memberOf)) := by
  rcases h.holds with ⟨document, hdocument, hmap⟩
  rcases exists_ofBytes_of_object hdocument with ⟨file, hfile, hlookup⟩
  exact ⟨file, hfile, (hlookup "map").trans hmap⟩

theorem Lists.exists_names (h : Lists text bindings) {file : MapFile}
    (hfield : file.members.lookup "map" = some (.object (bindings.map memberOf))) :
    ∃ names, file.names = .ok names := by
  refine exists_names_iff.2 ⟨_, hfield, fun name v hv => ?_⟩
  rcases (lastValue?_map_memberOf_iff h.distinct).1 hv with ⟨slot, rfl, hb⟩
  exact ⟨slot, rfl, h.valid _ hb⟩

/-- Bindings in another order make the same table. -/
theorem lastValue?_map_memberOf_congr {others : List (String × Int)}
    (hdistinct : (bindings.map Prod.fst).Nodup) (hperm : others.Perm bindings) (name : String) :
    lastValue? (others.map memberOf) name = lastValue? (bindings.map memberOf) name := by
  have hothers : (others.map Prod.fst).Nodup := (hperm.map Prod.fst).nodup_iff.2 hdistinct
  refine Option.ext fun v => ?_
  rw [lastValue?_map_memberOf_iff hothers, lastValue?_map_memberOf_iff hdistinct]
  simp only [hperm.mem_iff]

/-- A slot keeps the greatest of its names, compared byte by byte, so the name that stands last in
the text is kept only if no other name of the slot is greater. A text that lists the bindings in
another order keeps the same names. -/
theorem names_of_lists (h : Lists text bindings) :
    ∃ file names, ofText text = .ok file ∧ file.names = .ok names ∧
      (∀ slot name, names.get? slot = some name ↔ (name, slot) ∈ bindings ∧
        ∀ other, (other, slot) ∈ bindings → Text.utf8 other ≤ Text.utf8 name) ∧
      (∀ slot name, StandsLast bindings name slot → (names.get? slot = some name ↔
        ∀ other, (other, slot) ∈ bindings → Text.utf8 other ≤ Text.utf8 name)) ∧
      ∀ (reordered : String) (others : List (String × Int)), Lists reordered others →
        others.Perm bindings →
        ∃ file', ofText reordered = .ok file' ∧ file'.names = .ok names := by
  rcases exists_ofText_of_lists h with ⟨file, hfile, hfield⟩
  rcases h.exists_names hfield with ⟨names, hnames⟩
  have hgreatest : ∀ slot name, names.get? slot = some name ↔ (name, slot) ∈ bindings ∧
      ∀ other, (other, slot) ∈ bindings → Text.utf8 other ≤ Text.utf8 name := by
    intro slot name
    rw [(inverts_of_names hnames (field?_eq_object_iff.2 hfield)).greatest]
    simp only [h.gives_iff]
  refine ⟨file, names, hfile, hnames, hgreatest, fun slot name hlast => ?_,
    fun reordered others hothers hperm => ?_⟩
  · rw [hgreatest]
    exact and_iff_right hlast.mem
  · rcases exists_ofText_of_lists hothers with ⟨file', hfile', hfield'⟩
    refine ⟨file', hfile', ?_⟩
    rw [← hnames]
    exact names_congr (field?_eq_object_iff.2 hfield') (field?_eq_object_iff.2 hfield)
      (lastValue?_map_memberOf_congr h.distinct hperm)

/-- A map file that names the slot 4 twice, in ascending order. -/
def ascendingText : String := "\x7b\"map\":\x7b\"First\":4,\"Second\":4\x7d\x7d"

/-- Where names ascend in the text, the last one is kept. -/
theorem names_of_lists_ascending :
    ∃ file names, ofText ascendingText = .ok file ∧ file.names = .ok names ∧
      names.get? 4 = some "Second" := by
  have hlists : Lists ascendingText [("First", 4), ("Second", 4)] :=
    ⟨⟨_, rfl, rfl⟩, by decide, by decide⟩
  have hlast : StandsLast [("First", 4), ("Second", 4)] "Second" 4 :=
    ⟨[("First", 4)], [], rfl, by simp⟩
  rcases names_of_lists hlists with ⟨file, names, hfile, hnames, -, hkept, -⟩
  refine ⟨file, names, hfile, hnames, (hkept 4 "Second" hlast).2 fun other hother => ?_⟩
  rw [Text.utf8_le_utf8_iff]
  simp only [List.mem_cons, Prod.mk.injEq, and_true, List.not_mem_nil, or_false] at hother
  rcases hother with rfl | rfl <;> decide

/-- A map file that names the slot 1 twice, in descending order. -/
def descendingText : String :=
  "\x7b\"method\":\"vtable\",\"signature\":\"AA\",\"map\":\x7b\"b\":1,\"a\":1\x7d\x7d"

/-- Where names descend in the text, the last one is dropped. -/
theorem not_keepsLast_descending : ¬KeepsLast descendingText := by
  intro h
  have hlists : Lists descendingText [("b", 1), ("a", 1)] :=
    ⟨⟨_, rfl, rfl⟩, by decide, by decide⟩
  have hlast : StandsLast [("b", 1), ("a", 1)] "a" 1 := ⟨[("b", 1)], [], rfl, by simp⟩
  rcases h _ hlists with ⟨file, names, hfile, hnames, hkept⟩
  -- The greater name is kept, though it stands first.
  have hb : (ofText descendingText >>= fun file => file.names.map (·.get? 1)) =
      .ok (some "b") := rfl
  rw [hfile, Outcome.ok_bind, hnames] at hb
  have ha : names.get? 1 = some "a" := hkept 1 "a" hlast
  have heq : some "b" = some "a" := (Except.ok.inj hb).symm.trans ha
  revert heq
  decide

end OpcodeAtlas.MapFile
