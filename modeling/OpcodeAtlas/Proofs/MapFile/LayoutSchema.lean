import OpcodeAtlas.MapFile.LayoutValue
import OpcodeAtlas.Proofs.MapFile.SlotNames

/-!
# OpcodeAtlas.Proofs.MapFile.LayoutSchema — which values describe a layout

A value describes a layout when it has the shape of one (`Layout.Shaped`), an object of known and
distinct names or a list of five or six items, and gives every component its number: an offset of 64
bits (`GivesOffset`), or a count of 32 bits that may be absent or null (`GivesCount`).
`Layout.ShownBy` says so name by name, without a word on how members are looked at. The reader of
values knows the members by their keys (`Layout.Field`), goes member by member and keeps a draft:

* `shownBy_iff_gives` — the names and places of the components are those of the reader's members;
* `draftOfMembers_cons_iff` — one step takes a member whose key is known and new;
* `records_of_draftOfMembers`, `exists_draftOfMembers` — a run over all members, from its step;
* `finish_eq_ok_iff` — what is made of the draft in the end;
* `shownBy_object_iff`, `shownBy_list_iff` — so the draft of a value can be finished exactly when
  the value describes a layout.
-/

namespace OpcodeAtlas

namespace Layout

open Outcome (bind_eq_ok)

/-! ## Descriptions -/

/-- The names of the members. -/
def memberNames : List String :=
  ["switchTableOffsetOffset", "switchTableCountOffset", "defaultCaseAddrOffset",
    "imageBaseOffsetOffset", "switchTableDataOffsetOffset", "expectedCount"]

/-- The value is an object of known names, each once, or a list of as many items as a layout has
members, the last of which may be left out. -/
def Shaped : Json.Value → Prop
  | .object members => (members.map Prod.fst).Nodup ∧ ∀ m ∈ members, m.1 ∈ memberNames
  | .list items => items.length = 5 ∨ items.length = 6
  | _ => False

/-- What a value gives for a member: what stands under its name in an object, and at its place in a
list. -/
def given : Json.Value → String → Nat → Option Json.Value
  | .object members, name, _ => members.lookup name
  | .list items, _, place => items[place]?
  | _, _, _ => none

/-- An integer of 64 bits is given, and it is the offset. -/
def GivesOffset (found : Option Json.Value) (offset : Nat) : Prop :=
  found = some (.number (.integer offset)) ∧ offset < 0x1_0000_0000_0000_0000

/-- A signed integer of 32 bits is given, and it is the count; or nothing is, or null, and there is
no count. -/
inductive GivesCount : Option Json.Value → Option Int → Prop where
  | absent : GivesCount none none
  | null : GivesCount (some .null) none
  | number {n : Int} (hrange : -0x8000_0000 ≤ n ∧ n < 0x8000_0000) :
    GivesCount (some (.number (.integer n))) (some n)

/-- The value describes the layout: each component is given under its name, or at its place. -/
structure ShownBy (v : Json.Value) (l : Layout) : Prop where
  shaped : Shaped v
  bias : GivesOffset (given v "switchTableOffsetOffset" 0) l.bias
  count : GivesOffset (given v "switchTableCountOffset" 1) l.count
  defaultCase : GivesOffset (given v "defaultCaseAddrOffset" 2) l.defaultCase
  imageBase : GivesOffset (given v "imageBaseOffsetOffset" 3) l.imageBase
  tableData : GivesOffset (given v "switchTableDataOffsetOffset" 4) l.tableData
  expectedCount : GivesCount (given v "expectedCount" 5) l.expectedCount

/-- The order of the members of an object does not matter. -/
theorem ShownBy.of_perm {members members' : List (String × Json.Value)} {l : Layout}
    (hperm : members.Perm members') (h : ShownBy (.object members) l) :
    ShownBy (.object members') l := by
  rcases h with ⟨⟨hdistinct, hknown⟩, hbias, hcount, hdefault, hbase, hdata, hexpected⟩
  have hdistinct' : (members'.map Prod.fst).Nodup := (hperm.map Prod.fst).nodup_iff.1 hdistinct
  have hsame : given (.object members) = given (.object members') := by
    funext name _
    simp only [given]
    ext v
    rw [Json.lookup_eq_some_iff_mem hdistinct, Json.lookup_eq_some_iff_mem hdistinct',
      hperm.mem_iff]
  rw [hsame] at hbias hcount hdefault hbase hdata hexpected
  exact ⟨⟨hdistinct', fun m hm => hknown m (hperm.mem_iff.2 hm)⟩, hbias, hcount, hdefault, hbase,
    hdata, hexpected⟩

/-! ## Members and their numbers -/

theorem Field.mem_all (field : Field) : field ∈ all := by
  cases field <;> decide

theorem Field.ofKey?_key (field : Field) : ofKey? field.key = some field := by
  cases field <;> decide

theorem Field.ofKey?_eq_some_iff {key : String} {field : Field} :
    ofKey? key = some field ↔ key = field.key := by
  constructor
  · intro h
    have hfound := List.find?_some h
    exact (beq_iff_eq.1 hfound).symm
  · rintro rfl
    exact ofKey?_key field

theorem Field.key_injective {field other : Field} (h : field.key = other.key) : field = other := by
  have hsame := ofKey?_key field
  rw [h, ofKey?_key] at hsame
  exact (Option.some.inj hsame).symm

/-- The number that a layout gives a member, none for an absent count. -/
def number? (l : Layout) : Field → Option Int
  | .bias => some l.bias
  | .count => some l.count
  | .defaultCase => some l.defaultCase
  | .imageBase => some l.imageBase
  | .tableData => some l.tableData
  | .expectedCount => l.expectedCount

/-- Only the count may be absent. -/
theorem number?_isSome {l : Layout} {field : Field} (h : field ≠ .expectedCount) :
    ∃ n, l.number? field = some n := by
  cases field with
  | expectedCount => exact absurd rfl h
  | _ => exact ⟨_, rfl⟩

/-- What is given for a member, if anything is, and the number that it stands for. -/
inductive Field.Gives (field : Field) : Option Json.Value → Option Int → Prop where
  | offset {n : Int} (hfield : field ≠ .expectedCount)
      (hrange : 0 ≤ n ∧ n < 0x1_0000_0000_0000_0000) :
    Gives field (some (.number (.integer n))) (some n)
  | count {n : Int} (hfield : field = .expectedCount) (hrange : -0x8000_0000 ≤ n ∧ n < 0x8000_0000) :
    Gives field (some (.number (.integer n))) (some n)
  | null (hfield : field = .expectedCount) : Gives field (some .null) none
  | absent (hfield : field = .expectedCount) : Gives field none none

theorem Field.Gives.unique {field : Field} {found : Option Json.Value} {n n' : Option Int}
    (h : field.Gives found n) (h' : field.Gives found n') : n = n' := by
  cases h <;> cases h' <;> rfl

/-- The range of a member's kind. -/
theorem Field.kind_fits_iff {field : Field} {n : Int} :
    field.kind.fits n = true ↔
      if field = .expectedCount then -0x8000_0000 ≤ n ∧ n < 0x8000_0000
      else 0 ≤ n ∧ n < 0x1_0000_0000_0000_0000 := by
  simp only [IntegerKind.fits, Bool.and_eq_true, decide_eq_true_eq]
  cases field <;> exact Iff.rfl

/-- An integer of a member's kind is one that gives the member its number. -/
theorem Field.integerOf_eq_ok_iff {field : Field} {v : Json.Value} {n : Int} :
    integerOf field.kind v = .ok n ↔ field.Gives (some v) (some n) := by
  rw [MapFile.integerOf_eq_ok_iff, kind_fits_iff]
  constructor
  · rintro ⟨rfl, hrange⟩
    by_cases hfield : field = .expectedCount
    · rw [if_pos hfield] at hrange
      exact .count hfield hrange
    · rw [if_neg hfield] at hrange
      exact .offset hfield hrange
  · intro h
    cases h with
    | offset hfield hrange => exact ⟨rfl, by rwa [if_neg hfield]⟩
    | count hfield hrange => exact ⟨rfl, by rwa [if_pos hfield]⟩

/-- Reading a member finds the number that is given for it. -/
theorem Field.numberOf_eq_ok_iff {field : Field} {v : Json.Value} {n : Option Int} :
    field.numberOf v = .ok n ↔ field.Gives (some v) n := by
  unfold numberOf
  split
  · -- A null stands for the count and for nothing else.
    constructor
    · intro h
      cases h
      exact .null rfl
    · intro h
      cases h
      rfl
  · rename_i hother
    rw [Outcome.map_eq_ok]
    constructor
    · intro h
      rcases h with ⟨m, hm, rfl⟩
      exact integerOf_eq_ok_iff.1 hm
    · intro h
      cases n with
      | some m => exact ⟨m, integerOf_eq_ok_iff.2 h, rfl⟩
      | none =>
        cases h with
        | null hfield => exact absurd rfl (hother hfield)

/-! ## What the reader finds -/

/-- An offset is what is given for its member. -/
theorem Field.gives_offset_iff {field : Field} (hfield : field ≠ .expectedCount)
    {found : Option Json.Value} {offset : Nat} :
    field.Gives found (some (offset : Int)) ↔ GivesOffset found offset := by
  constructor
  · intro h
    cases h with
    | offset _ hrange => exact ⟨rfl, by omega⟩
    | count hcount => exact absurd hcount hfield
  · rintro ⟨rfl, hrange⟩
    exact .offset hfield (by omega)

/-- The count is what is given for its member. -/
theorem Field.gives_count_iff {found : Option Json.Value} {count : Option Int} :
    Field.expectedCount.Gives found count ↔ GivesCount found count := by
  constructor
  · intro h
    cases h with
    | offset hfield => exact absurd rfl hfield
    | count _ hrange => exact .number hrange
    | null => exact .null
    | absent => exact .absent
  · intro h
    cases h with
    | absent => exact .absent rfl
    | null => exact .null rfl
    | number hrange => exact .count rfl hrange

/-- What the reader finds for a member, by its key in an object and in its turn in a list. -/
def foundIn : Json.Value → Field → Option Json.Value
  | .object members, field => members.lookup field.key
  | .list items, field => (Field.all.zip items).lookup field
  | _, _ => none

/-- In a zip, the item at the first place of a key is found. -/
theorem lookup_zip {α β : Type} [DecidableEq α] {key : α} {keys : List α} (h : key ∈ keys)
    (items : List β) : (keys.zip items).lookup key = items[keys.idxOf key]? := by
  induction keys generalizing items with
  | nil => cases h
  | cons first keys ih =>
    cases items with
    | nil => rfl
    | cons item items =>
      rw [List.zip_cons_cons]
      by_cases hkey : key = first
      · subst hkey
        rw [List.lookup_cons_self, List.idxOf_cons_self]
        rfl
      · rw [Json.lookup_cons_of_ne hkey, List.idxOf_cons_ne _ (Ne.symm hkey),
          List.getElem?_cons_succ]
        exact ih (List.mem_of_ne_of_mem hkey h) items

/-- The reader finds what is given under the key of a member, or at its place among all members. -/
theorem foundIn_eq_given (v : Json.Value) (field : Field) :
    foundIn v field = given v field.key (Field.all.idxOf field) := by
  cases v with
  | list items => exact lookup_zip field.mem_all items
  | _ => rfl

/-- A value describes a layout if the reader finds the number of every member in it. -/
theorem shownBy_iff_gives {v : Json.Value} {l : Layout} :
    ShownBy v l ↔ Shaped v ∧ ∀ field : Field, field.Gives (foundIn v field) (l.number? field) := by
  simp only [foundIn_eq_given]
  constructor
  · rintro ⟨hshaped, hbias, hcount, hdefault, hbase, hdata, hexpected⟩
    refine ⟨hshaped, fun field => ?_⟩
    cases field with
    | bias => exact (Field.gives_offset_iff (by decide)).2 hbias
    | count => exact (Field.gives_offset_iff (by decide)).2 hcount
    | defaultCase => exact (Field.gives_offset_iff (by decide)).2 hdefault
    | imageBase => exact (Field.gives_offset_iff (by decide)).2 hbase
    | tableData => exact (Field.gives_offset_iff (by decide)).2 hdata
    | expectedCount => exact Field.gives_count_iff.2 hexpected
  · rintro ⟨hshaped, hgives⟩
    exact ⟨hshaped, (Field.gives_offset_iff (by decide)).1 (hgives .bias),
      (Field.gives_offset_iff (by decide)).1 (hgives .count),
      (Field.gives_offset_iff (by decide)).1 (hgives .defaultCase),
      (Field.gives_offset_iff (by decide)).1 (hgives .imageBase),
      (Field.gives_offset_iff (by decide)).1 (hgives .tableData),
      Field.gives_count_iff.1 (hgives .expectedCount)⟩

/-- The names are the keys that the reader knows. -/
theorem mem_memberNames_iff {name : String} :
    name ∈ memberNames ↔ ∃ field : Field, name = field.key := by
  have hnames : memberNames = Field.all.map Field.key := rfl
  rw [hnames, List.mem_map]
  constructor
  · rintro ⟨field, -, rfl⟩
    exact ⟨field, rfl⟩
  · rintro ⟨field, rfl⟩
    exact ⟨field, field.mem_all, rfl⟩

/-! ## Drafts -/

/-- The draft holds the number of every member that something is given for, and no other. -/
structure Records (draft : LayoutDraft) (found : Field → Option Json.Value) : Prop where
  some : ∀ (field : Field) (v : Json.Value), found field = some v →
    ∃ n, field.Gives (some v) n ∧ draft.lookup field = some n
  none : ∀ field : Field, found field = none → draft.lookup field = none

namespace Records

variable {draft : LayoutDraft} {found : Field → Option Json.Value} {field : Field}
  (h : Records draft found)

include h

/-- What is given for a member is what the layout gives it exactly when the draft says so. -/
theorem gives_iff {l : Layout} :
    field.Gives (found field) (l.number? field) ↔ (draft.lookup field).join = l.number? field := by
  cases hfound : found field with
  | none =>
    rw [h.none field hfound]
    constructor
    · intro hgives
      generalize l.number? field = n at hgives
      cases hgives
      rfl
    · intro hnumber
      -- A layout has a number for every member but the count.
      have hcount : field = .expectedCount := by
        by_contra hother
        rcases number?_isSome (l := l) hother with ⟨n, hn⟩
        rw [hn] at hnumber
        cases hnumber
      rw [← hnumber]
      exact .absent hcount
  | some v =>
    rcases h.some field v hfound with ⟨n, hgives, hlookup⟩
    rw [hlookup]
    constructor
    · exact hgives.unique
    · intro hnumber
      rwa [← hnumber]

/-- An offset is finished when its member has a number. -/
theorem offset_eq_ok_iff (hother : field ≠ .expectedCount) {n : Nat} :
    draft.offset field = .ok n ↔ (draft.lookup field).join = Option.some (n : Int) := by
  unfold LayoutDraft.offset
  cases hfound : found field with
  | none =>
    rw [h.none field hfound]
    simp
  | some v =>
    rcases h.some field v hfound with ⟨m, hgives, hlookup⟩
    rw [hlookup]
    cases hgives with
    | offset _ hrange =>
      simp only [Except.ok.injEq, Option.join_some, Option.some.injEq]
      omega
    | count hfield => exact absurd hfield hother
    | null hfield => exact absurd hfield hother

end Records

theorem finish_eq_ok_iff {draft : LayoutDraft} {found : Field → Option Json.Value} {l : Layout}
    (h : Records draft found) :
    draft.finish = .ok l ↔ ∀ field : Field, field.Gives (found field) (l.number? field) := by
  have hsteps : draft.finish = .ok l ↔
      draft.offset .bias = .ok l.bias ∧ draft.offset .count = .ok l.count ∧
      draft.offset .defaultCase = .ok l.defaultCase ∧ draft.offset .imageBase = .ok l.imageBase ∧
      draft.offset .tableData = .ok l.tableData ∧
      (draft.lookup .expectedCount).join = l.expectedCount := by
    simp only [LayoutDraft.finish, bind_eq_ok]
    constructor
    · rintro ⟨bias, hbias, count, hcount, defaultCase, hdefault, imageBase, hbase, tableData, hdata,
        hl⟩
      cases hl
      exact ⟨hbias, hcount, hdefault, hbase, hdata, rfl⟩
    · rintro ⟨hbias, hcount, hdefault, hbase, hdata, hexpected⟩
      refine ⟨_, hbias, _, hcount, _, hdefault, _, hbase, _, hdata, ?_⟩
      rw [hexpected]
      rfl
  have hmembers : (∀ field : Field, (draft.lookup field).join = l.number? field) ↔
      (draft.lookup .bias).join = some (l.bias : Int) ∧
      (draft.lookup .count).join = some (l.count : Int) ∧
      (draft.lookup .defaultCase).join = some (l.defaultCase : Int) ∧
      (draft.lookup .imageBase).join = some (l.imageBase : Int) ∧
      (draft.lookup .tableData).join = some (l.tableData : Int) ∧
      (draft.lookup .expectedCount).join = l.expectedCount := by
    constructor
    · intro hall
      exact ⟨hall .bias, hall .count, hall .defaultCase, hall .imageBase, hall .tableData,
        hall .expectedCount⟩
    · rintro ⟨hbias, hcount, hdefault, hbase, hdata, hexpected⟩ field
      cases field <;> assumption
  simp only [h.gives_iff]
  rw [hsteps, hmembers, h.offset_eq_ok_iff (by decide), h.offset_eq_ok_iff (by decide),
    h.offset_eq_ok_iff (by decide), h.offset_eq_ok_iff (by decide), h.offset_eq_ok_iff (by decide)]

/-! ## Objects -/

theorem claim_eq_ok_iff {draft : LayoutDraft} {key : String} {field : Field} :
    draft.claim key = .ok field ↔ key = field.key ∧ draft.lookup field = none := by
  unfold LayoutDraft.claim
  rw [← Field.ofKey?_eq_some_iff]
  cases hkey : Field.ofKey? key with
  | none => simp
  | some known =>
    simp only [Option.some.injEq]
    split
    · rename_i hrepeated
      simp only [reduceCtorEq, false_iff, not_and]
      rintro rfl hnew
      rw [hnew] at hrepeated
      cases hrepeated
    · rename_i hnew
      simp only [Except.ok.injEq, iff_self_and]
      rintro rfl
      exact Option.not_isSome_iff_eq_none.1 hnew

/-- One step takes a member whose key is known and new, and reads its number. -/
theorem draftOfMembers_cons_iff {draft draft' : LayoutDraft} {key : String} {v : Json.Value}
    {rest : List (String × Json.Value)} :
    draftOfMembers draft ((key, v) :: rest) = .ok draft' ↔ ∃ (field : Field) (n : Option Int),
      key = field.key ∧ draft.lookup field = none ∧ field.Gives (some v) n ∧
        draftOfMembers ((field, n) :: draft) rest = .ok draft' := by
  rw [draftOfMembers]
  simp only [bind_eq_ok, claim_eq_ok_iff, Field.numberOf_eq_ok_iff]
  constructor
  · rintro ⟨field, ⟨hkey, hnew⟩, n, hgives, hrest⟩
    exact ⟨field, n, hkey, hnew, hgives, hrest⟩
  · rintro ⟨field, n, hkey, hnew, hgives, hrest⟩
    exact ⟨field, ⟨hkey, hnew⟩, n, hgives, hrest⟩

/-- What a run over members does to a draft. -/
structure Extends (draft : LayoutDraft) (members : List (String × Json.Value))
    (draft' : LayoutDraft) : Prop where
  distinct : (members.map Prod.fst).Nodup
  /-- Every key is known, and the draft has nothing for it yet. -/
  known : ∀ m ∈ members, ∃ field : Field, m.1 = field.key ∧ draft.lookup field = none
  found : ∀ (field : Field) (v : Json.Value), members.lookup field.key = some v →
    ∃ n, field.Gives (some v) n ∧ draft'.lookup field = some n
  kept : ∀ field : Field, members.lookup field.key = none →
    draft'.lookup field = draft.lookup field

/-- A run over members, by induction from the step. -/
theorem extends_of_draftOfMembers {draft draft' : LayoutDraft}
    {members : List (String × Json.Value)} (h : draftOfMembers draft members = .ok draft') :
    Extends draft members draft' := by
  induction members generalizing draft with
  | nil =>
    cases h
    exact ⟨.nil, by simp, by simp, fun _ _ => rfl⟩
  | cons m rest ih =>
    rcases m with ⟨key, v⟩
    rcases draftOfMembers_cons_iff.1 h with ⟨field, n, rfl, hnew, hgives, hrest⟩
    have hextends := ih hrest
    -- What comes behind is new to the draft that holds this member.
    have hother : ∀ m ∈ rest, ∃ other : Field, m.1 = other.key ∧ other ≠ field ∧
        draft.lookup other = none := by
      intro m hm
      rcases hextends.known m hm with ⟨other, hkey, hlookup⟩
      have hne : other ≠ field := by
        rintro rfl
        rw [List.lookup_cons_self] at hlookup
        cases hlookup
      rw [Json.lookup_cons_of_ne hne] at hlookup
      exact ⟨other, hkey, hne, hlookup⟩
    have hfresh : field.key ∉ rest.map Prod.fst := by
      intro hmem
      rcases List.mem_map.1 hmem with ⟨m, hm, hkey⟩
      rcases hother m hm with ⟨other, hkey', hne, -⟩
      exact hne (Field.key_injective (hkey'.symm.trans hkey))
    have hskip : ∀ other : Field, other ≠ field →
        ((field.key, v) :: rest).lookup other.key = rest.lookup other.key ∧
        List.lookup other ((field, n) :: draft) = draft.lookup other := by
      intro other hne
      have hkeys : other.key ≠ field.key := fun hkey => hne (Field.key_injective hkey)
      exact ⟨Json.lookup_cons_of_ne hkeys v rest, Json.lookup_cons_of_ne hne n draft⟩
    have hthis : draft'.lookup field = some n := by
      have hnone : rest.lookup field.key = none := by
        rw [List.lookup_eq_none_iff]
        intro m hm
        simpa using fun hkey => hfresh (List.mem_map.2 ⟨m, hm, hkey.symm⟩)
      rw [hextends.kept field hnone, List.lookup_cons_self]
    constructor
    · exact List.nodup_cons.2 ⟨hfresh, hextends.distinct⟩
    · intro m hm
      rcases List.mem_cons.1 hm with rfl | hlater
      · exact ⟨field, rfl, hnew⟩
      · rcases hother m hlater with ⟨other, hkey, -, hlookup⟩
        exact ⟨other, hkey, hlookup⟩
    · intro other w hw
      by_cases hne : other = field
      · subst hne
        rw [List.lookup_cons_self] at hw
        cases hw
        exact ⟨n, hgives, hthis⟩
      · rw [(hskip other hne).1] at hw
        exact hextends.found other w hw
    · intro other hnone
      have hne : other ≠ field := by
        rintro rfl
        rw [List.lookup_cons_self] at hnone
        cases hnone
      rw [(hskip other hne).1] at hnone
      rw [hextends.kept other hnone, (hskip other hne).2]

theorem records_of_draftOfMembers {draft : LayoutDraft} {members : List (String × Json.Value)}
    (h : draftOfMembers [] members = .ok draft) : Records draft (foundIn (.object members)) :=
  ⟨(extends_of_draftOfMembers h).found, (extends_of_draftOfMembers h).kept⟩

/-- A run over new members of known keys goes through if each gives a number. -/
theorem exists_draftOfMembers {draft : LayoutDraft} {members : List (String × Json.Value)}
    (hdistinct : (members.map Prod.fst).Nodup)
    (hmembers : ∀ m ∈ members, ∃ (field : Field) (n : Option Int), m.1 = field.key ∧
      draft.lookup field = none ∧ field.Gives (some m.2) n) :
    ∃ draft', draftOfMembers draft members = .ok draft' := by
  induction members generalizing draft with
  | nil => exact ⟨draft, rfl⟩
  | cons m rest ih =>
    rcases m with ⟨key, v⟩
    rcases hmembers (key, v) List.mem_cons_self with ⟨field, n, hkey, hnew, hgives⟩
    obtain rfl : key = field.key := hkey
    rw [List.map_cons, List.nodup_cons] at hdistinct
    have hrest : ∀ m ∈ rest, ∃ (other : Field) (n' : Option Int), m.1 = other.key ∧
        List.lookup other ((field, n) :: draft) = none ∧ other.Gives (some m.2) n' := by
      intro m hm
      rcases hmembers m (List.mem_cons_of_mem _ hm) with ⟨other, n', hkey, hlookup, hgives'⟩
      have hne : other ≠ field := by
        rintro rfl
        exact hdistinct.1 (List.mem_map.2 ⟨m, hm, hkey⟩)
      refine ⟨other, n', hkey, ?_, hgives'⟩
      rwa [Json.lookup_cons_of_ne hne]
    rcases ih hdistinct.2 hrest with ⟨draft', hdraft'⟩
    exact ⟨draft', draftOfMembers_cons_iff.2 ⟨field, n, rfl, hnew, hgives, hdraft'⟩⟩

/-- The members of an object make a layout when the object describes it. -/
theorem shownBy_object_iff {members : List (String × Json.Value)} {l : Layout} :
    (draftOfMembers [] members >>= LayoutDraft.finish) = .ok l ↔ ShownBy (.object members) l := by
  rw [bind_eq_ok, shownBy_iff_gives]
  constructor
  · intro h
    rcases h with ⟨draft, hdraft, hfinish⟩
    have hextends := extends_of_draftOfMembers hdraft
    refine ⟨⟨hextends.distinct, fun m hm => ?_⟩,
      (finish_eq_ok_iff (records_of_draftOfMembers hdraft)).1 hfinish⟩
    rcases hextends.known m hm with ⟨field, hkey, -⟩
    exact mem_memberNames_iff.2 ⟨field, hkey⟩
  · intro h
    rcases h with ⟨⟨hdistinct, hknown⟩, hgives⟩
    have hmembers : ∀ m ∈ members, ∃ (field : Field) (n : Option Int), m.1 = field.key ∧
        List.lookup field ([] : LayoutDraft) = none ∧ field.Gives (some m.2) n := by
      intro m hm
      rcases mem_memberNames_iff.1 (hknown m hm) with ⟨field, hkey⟩
      have hlookup : members.lookup field.key = some m.2 := by
        rw [Json.lookup_eq_some_iff_mem hdistinct, ← hkey]
        exact hm
      have hfield := hgives field
      simp only [foundIn, hlookup] at hfield
      exact ⟨field, _, hkey, rfl, hfield⟩
    rcases exists_draftOfMembers hdistinct hmembers with ⟨draft, hdraft⟩
    exact ⟨draft, hdraft, (finish_eq_ok_iff (records_of_draftOfMembers hdraft)).2 hgives⟩

/-! ## Lists -/

/-- One step takes an item for the next member. -/
theorem draftOfItems_cons_iff {field : Field} {fields : List Field} {index : Nat} {v : Json.Value}
    {items : List Json.Value} {draft : LayoutDraft} :
    draftOfItems (field :: fields) index (v :: items) = .ok draft ↔ ∃ n draft',
      field.Gives (some v) n ∧ draftOfItems fields (index + 1) items = .ok draft' ∧
        draft = (field, n) :: draft' := by
  rw [draftOfItems]
  simp only [bind_eq_ok, Field.numberOf_eq_ok_iff]
  constructor
  · rintro ⟨n, hgives, draft', hrest, hdraft⟩
    cases hdraft
    exact ⟨n, draft', hgives, hrest, rfl⟩
  · rintro ⟨n, draft', hgives, hrest, rfl⟩
    exact ⟨n, hgives, draft', hrest, rfl⟩

/-- A run over items records them for the members at their places. -/
theorem records_of_draftOfItems {fields : List Field} {index : Nat} {items : List Json.Value}
    {draft : LayoutDraft} (h : draftOfItems fields index items = .ok draft) :
    items.length ≤ fields.length ∧ Records draft (List.lookup · (fields.zip items)) := by
  induction fields generalizing index items draft with
  | nil =>
    rw [draftOfItems] at h
    split at h <;> cases h
    rename_i hempty
    exact ⟨by simpa using hempty, by simp, by simp⟩
  | cons first fields ih =>
    cases items with
    | nil =>
      rw [draftOfItems] at h
      split at h <;> cases h
      exact ⟨Nat.zero_le _, by simp, by simp⟩
    | cons v items =>
      rcases draftOfItems_cons_iff.1 h with ⟨n, draft', hgives, hrest, rfl⟩
      rcases ih hrest with ⟨hlength, hrecords⟩
      refine ⟨Nat.succ_le_succ hlength, fun field w hw => ?_, fun field hnone => ?_⟩
      · rw [List.zip_cons_cons] at hw
        by_cases hne : field = first
        · subst hne
          rw [List.lookup_cons_self] at hw ⊢
          cases hw
          exact ⟨n, hgives, rfl⟩
        · rw [Json.lookup_cons_of_ne hne] at hw ⊢
          exact hrecords.some field w hw
      · rw [List.zip_cons_cons] at hnone
        have hne : field ≠ first := by
          rintro rfl
          rw [List.lookup_cons_self] at hnone
          cases hnone
        rw [Json.lookup_cons_of_ne hne] at hnone ⊢
        exact hrecords.none field hnone

/-- A run over items goes through if each gives a number to its member and none is missing but the
count. -/
theorem exists_draftOfItems {fields missing : List Field} {items : List Json.Value}
    (hitems : List.Forall₂ (fun field v => ∃ n, Field.Gives field (some v) n) fields items)
    (hmissing : ∀ field ∈ missing.head?, field = .expectedCount) (index : Nat) :
    ∃ draft, draftOfItems (fields ++ missing) index items = .ok draft := by
  induction hitems generalizing index with
  | nil =>
    cases missing with
    | nil => exact ⟨[], rfl⟩
    | cons field missing => exact ⟨[], if_pos (hmissing field rfl)⟩
  | cons hgives _ ih =>
    rcases hgives with ⟨n, hgives⟩
    rcases ih (index + 1) with ⟨draft, hdraft⟩
    exact ⟨_, draftOfItems_cons_iff.2 ⟨n, draft, hgives, hdraft, rfl⟩⟩

/-- The items of a list make a layout when the list describes it. -/
theorem shownBy_list_iff {items : List Json.Value} {l : Layout} :
    (draftOfItems Field.all 0 items >>= LayoutDraft.finish) = .ok l ↔ ShownBy (.list items) l := by
  rw [bind_eq_ok, shownBy_iff_gives]
  constructor
  · intro h
    rcases h with ⟨draft, hdraft, hfinish⟩
    rcases records_of_draftOfItems hdraft with ⟨hlength, hrecords⟩
    have hgives := (finish_eq_ok_iff hrecords).1 hfinish
    refine ⟨?_, hgives⟩
    -- Fewer than five items give nothing for the last offset.
    have hdata := hgives .tableData
    have hsix : items.length ≤ 6 := hlength
    change items.length = 5 ∨ items.length = 6
    rcases items with _ | ⟨a, _ | ⟨b, _ | ⟨c, _ | ⟨d, _ | ⟨e, rest⟩⟩⟩⟩⟩
    · cases hdata
    · cases hdata
    · cases hdata
    · cases hdata
    · cases hdata
    · simp only [List.length_cons] at hsix ⊢
      omega
  · intro h
    rcases h with ⟨hshaped, hgives⟩
    have hdraft : ∃ draft, draftOfItems Field.all 0 items = .ok draft := by
      rcases items with _ | ⟨a, _ | ⟨b, _ | ⟨c, _ | ⟨d, _ | ⟨e, rest⟩⟩⟩⟩⟩
      · cases hgives .tableData
      · cases hgives .tableData
      · cases hgives .tableData
      · cases hgives .tableData
      · cases hgives .tableData
      have hoffsets : List.Forall₂ (fun field v => ∃ n, Field.Gives field (some v) n)
          [.bias, .count, .defaultCase, .imageBase, .tableData] [a, b, c, d, e] :=
        .cons ⟨_, hgives .bias⟩ (.cons ⟨_, hgives .count⟩ (.cons ⟨_, hgives .defaultCase⟩
          (.cons ⟨_, hgives .imageBase⟩ (.cons ⟨_, hgives .tableData⟩ .nil))))
      rcases rest with _ | ⟨f, _ | ⟨g, rest⟩⟩
      · have hlast : ∀ field ∈ [Field.expectedCount].head?, field = .expectedCount := by simp
        exact exists_draftOfItems hoffsets hlast 0
      · have hall := List.rel_append hoffsets (.cons ⟨_, hgives .expectedCount⟩ .nil)
        have hlast : ∀ field ∈ ([] : List Field).head?, field = .expectedCount := by simp
        exact exists_draftOfItems hall hlast 0
      · change rest.length + 7 = 5 ∨ rest.length + 7 = 6 at hshaped
        omega
    rcases hdraft with ⟨draft, hdraft⟩
    exact ⟨draft, hdraft, (finish_eq_ok_iff (records_of_draftOfItems hdraft).2).2 hgives⟩

end Layout

end OpcodeAtlas
