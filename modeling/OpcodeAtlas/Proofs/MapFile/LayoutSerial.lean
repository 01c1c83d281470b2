import OpcodeAtlas.Proofs.Json.Object
import OpcodeAtlas.Proofs.MapFile.LayoutReading

/-!
# OpcodeAtlas.Proofs.MapFile.LayoutSerial — layouts are read back as they were written

A layout is written as the object of its members, without one for an absent count. The object
describes the layout (`shownBy_members`), so that reading finds it again:

* `members_eq` — what is written, name by name;
* `exists_shownBy_iff` — which values describe a layout at all;
* `ofText_toJson` — a layout whose numbers are in range is read back;
* `ofText_schema` — which texts describe a layout, and which one.
-/

namespace OpcodeAtlas.Layout

open Json (numberMember)

/-! ## Written layouts -/

/-- The offsets are numbers of 64 bits, and the count, if there is one, is a signed one of 32. -/
def InRange (l : Layout) : Prop :=
  (∀ offset ∈ [l.bias, l.count, l.defaultCase, l.imageBase, l.tableData],
      offset < 0x1_0000_0000_0000_0000) ∧
    ∀ n ∈ l.expectedCount, -0x8000_0000 ≤ n ∧ n < 0x8000_0000

instance (l : Layout) : Decidable l.InRange := inferInstanceAs (Decidable (_ ∧ _))

/-- The members of a layout by name; there is none for an absent count. -/
theorem members_eq (l : Layout) :
    l.members =
      [("switchTableOffsetOffset", (l.bias : Int)), ("switchTableCountOffset", (l.count : Int)),
        ("defaultCaseAddrOffset", (l.defaultCase : Int)),
        ("imageBaseOffsetOffset", (l.imageBase : Int)),
        ("switchTableDataOffsetOffset", (l.tableData : Int))] ++
      l.expectedCount.toList.map fun n => ("expectedCount", n) := by
  rcases l with ⟨bias, count, defaultCase, imageBase, tableData, _ | expectedCount⟩ <;> rfl

/-- The members are written in the order of their names. -/
theorem keys_members (l : Layout) :
    ((l.members.map numberMember).map Prod.fst).Sublist memberNames := by
  rcases l with ⟨bias, count, defaultCase, imageBase, tableData, _ | expectedCount⟩
  · exact List.take_sublist 5 memberNames
  · exact List.Sublist.refl memberNames

/-- What is written of a layout describes it. -/
theorem shownBy_members {l : Layout} (h : l.InRange) :
    ShownBy (.object (l.members.map numberMember)) l := by
  have hdistinct : memberNames.Nodup := by decide
  have hshaped : Shaped (.object (l.members.map numberMember)) :=
    ⟨(keys_members l).nodup hdistinct,
      fun m hm => (keys_members l).subset (List.mem_map_of_mem hm)⟩
  rcases l with ⟨bias, count, defaultCase, imageBase, tableData, expectedCount⟩
  rcases h with ⟨hoffsets, hrange⟩
  simp only [List.mem_cons, List.not_mem_nil, or_false, forall_eq_or_imp, forall_eq] at hoffsets
  rcases hoffsets with ⟨hbias, hcount, hdefault, hbase, hdata⟩
  cases expectedCount with
  | none =>
    exact ⟨hshaped, ⟨rfl, hbias⟩, ⟨rfl, hcount⟩, ⟨rfl, hdefault⟩, ⟨rfl, hbase⟩, ⟨rfl, hdata⟩,
      .absent⟩
  | some n =>
    exact ⟨hshaped, ⟨rfl, hbias⟩, ⟨rfl, hcount⟩, ⟨rfl, hdefault⟩, ⟨rfl, hbase⟩, ⟨rfl, hdata⟩,
      .number (hrange n rfl)⟩

/-- All numbers of a layout that is in range fit into 64 bits. -/
theorem InRange.fits {l : Layout} (h : l.InRange) : ∀ m ∈ l.members, Json.Fits m.2 := by
  rcases h with ⟨hoffsets, hrange⟩
  have hoffset : ∀ offset ∈ [l.bias, l.count, l.defaultCase, l.imageBase, l.tableData],
      Json.Fits offset := by
    intro offset hmem
    have hless := hoffsets offset hmem
    unfold Json.Fits
    omega
  have hcount : ∀ n ∈ l.expectedCount, Json.Fits n := by
    intro n hn
    have hbounds := hrange n hn
    unfold Json.Fits
    omega
  intro m hm
  rw [members_eq, List.mem_append, List.mem_map] at hm
  rcases hm with hm | ⟨n, hn, rfl⟩
  · simp only [List.mem_cons, List.not_mem_nil, or_false] at hm
    rcases hm with rfl | rfl | rfl | rfl | rfl
    all_goals exact hoffset _ (by simp)
  · exact hcount n (Option.mem_toList.1 hn)

theorem document_toJson {l : Layout} (h : l.InRange) :
    Json.document (.ofBytes (Text.utf8 l.toJson)) = .ok (.object (l.members.map numberMember)) :=
  Json.document_objectOfNumbers .compact h.fits

/-- A layout is read back as it was written. -/
theorem ofText_toJson {l : Layout} (h : l.InRange) : ofText l.toJson = .ok l :=
  ofText_eq_ok_iff.2 ⟨_, document_toJson h, shownBy_members h⟩

/-! ## Values that describe a layout -/

/-- A value of the right shape describes a layout when it gives every offset a number of 64 bits,
and the count one of 32 bits or none. -/
theorem exists_shownBy_iff {v : Json.Value} :
    (∃ l, ShownBy v l) ↔ Shaped v ∧
      (∀ m ∈ [("switchTableOffsetOffset", 0), ("switchTableCountOffset", 1),
          ("defaultCaseAddrOffset", 2), ("imageBaseOffsetOffset", 3),
          ("switchTableDataOffsetOffset", 4)],
        ∃ offset, GivesOffset (given v m.1 m.2) offset) ∧
      ∃ count, GivesCount (given v "expectedCount" 5) count := by
  simp only [List.forall_mem_cons, List.not_mem_nil, false_imp_iff, implies_true, and_true]
  constructor
  · rintro ⟨l, hshaped, hbias, hcount, hdefault, hbase, hdata, hexpected⟩
    exact ⟨hshaped, ⟨⟨_, hbias⟩, ⟨_, hcount⟩, ⟨_, hdefault⟩, ⟨_, hbase⟩, ⟨_, hdata⟩⟩, _, hexpected⟩
  · rintro ⟨hshaped, ⟨⟨bias, hbias⟩, ⟨count, hcount⟩, ⟨defaultCase, hdefault⟩, ⟨imageBase, hbase⟩,
      ⟨tableData, hdata⟩⟩, expectedCount, hexpected⟩
    exact ⟨⟨bias, count, defaultCase, imageBase, tableData, expectedCount⟩, hshaped, hbias, hcount,
      hdefault, hbase, hdata, hexpected⟩

/-- A text describes a layout when its document is an object of known names, each once, or a list of
five or six items, and gives every offset an integer of 64 bits and the count, if anything, a null
or a signed integer of 32 bits; an integer is written as its decimal digits and nothing else. Each
name and each place stands for one component. The order of members does not matter, and what is
written of a layout, without a member for an absent count, is read back. -/
theorem ofText_schema :
    (∀ text, (∃ l, ofText text = .ok l) ↔
      ∃ v, Json.document (.ofBytes (Text.utf8 text)) = .ok v ∧ Shaped v ∧
        (∀ m ∈ [("switchTableOffsetOffset", 0), ("switchTableCountOffset", 1),
            ("defaultCaseAddrOffset", 2), ("imageBaseOffsetOffset", 3),
            ("switchTableDataOffsetOffset", 4)],
          ∃ offset, GivesOffset (given v m.1 m.2) offset) ∧
        ∃ count, GivesCount (given v "expectedCount" 5) count) ∧
    (∀ text l, ofText text = .ok l ↔
      ∃ v, Json.document (.ofBytes (Text.utf8 text)) = .ok v ∧ ShownBy v l) ∧
    (∀ bound depth feed n rest,
      Json.value bound depth feed = .ok (.number (.integer n), rest) ↔
        ∃ blanks, (∀ b ∈ blanks, Json.isBlankByte b = true) ∧
          feed = .ofBytes (blanks ++ Json.decimal n) ++ rest ∧ Json.EndsNumber rest ∧ Json.Fits n) ∧
    (∀ text text' members members',
      Json.document (.ofBytes (Text.utf8 text)) = .ok (.object members) →
      Json.document (.ofBytes (Text.utf8 text')) = .ok (.object members') →
      members.Perm members' → ∀ l, ofText text = .ok l ↔ ofText text' = .ok l) ∧
    ∀ l : Layout, l.InRange →
      Json.document (.ofBytes (Text.utf8 l.toJson)) = .ok (.object
        ([("switchTableOffsetOffset", .number (.integer l.bias)),
          ("switchTableCountOffset", .number (.integer l.count)),
          ("defaultCaseAddrOffset", .number (.integer l.defaultCase)),
          ("imageBaseOffsetOffset", .number (.integer l.imageBase)),
          ("switchTableDataOffsetOffset", .number (.integer l.tableData))] ++
        l.expectedCount.toList.map fun n => ("expectedCount", .number (.integer n)))) ∧
      ofText l.toJson = .ok l := by
  refine ⟨fun text => ?_, fun _ _ => ofText_eq_ok_iff,
    fun _ _ _ _ _ => Json.value_eq_integer_iff, ?_, ?_⟩
  · simp only [ofText_eq_ok_iff]
    constructor
    · rintro ⟨l, v, hdocument, hshown⟩
      exact ⟨v, hdocument, exists_shownBy_iff.1 ⟨l, hshown⟩⟩
    · rintro ⟨v, hdocument, hschema⟩
      rcases exists_shownBy_iff.2 hschema with ⟨l, hshown⟩
      exact ⟨l, v, hdocument, hshown⟩
  · intro text text' members members' hdocument hdocument' hperm l
    rw [ofText_eq_ok_iff, ofText_eq_ok_iff, hdocument, hdocument']
    constructor
    · rintro ⟨v, ⟨⟩, hshown⟩
      exact ⟨_, rfl, hshown.of_perm hperm⟩
    · rintro ⟨v, ⟨⟩, hshown⟩
      exact ⟨_, rfl, hshown.of_perm hperm.symm⟩
  · intro l hrange
    refine ⟨?_, ofText_toJson hrange⟩
    have hdocument := document_toJson hrange
    rw [members_eq, List.map_append, List.map_map] at hdocument
    exact hdocument

/-- A layout with the greatest offset and the least count. -/
def widest : Layout :=
  ⟨0xFFFF_FFFF_FFFF_FFFF, 0, 23, 30, 40, some (-0x8000_0000)⟩

/-- The widest layout as it is written. -/
def widestText : String :=
  "\x7b\"switchTableOffsetOffset\":18446744073709551615,\"switchTableCountOffset\":0," ++
    "\"defaultCaseAddrOffset\":23,\"imageBaseOffsetOffset\":30," ++
    "\"switchTableDataOffsetOffset\":40,\"expectedCount\":-2147483648\x7d"

/-- The widest layout in several lines, its members in another order. -/
def shuffledText : String :=
  "\x7b\n  \"expectedCount\": -2147483648,\n  \"switchTableDataOffsetOffset\": 40,\n" ++
    "  \"defaultCaseAddrOffset\": 23,\n  \"switchTableCountOffset\": 0,\n" ++
    "  \"imageBaseOffsetOffset\": 30,\n" ++
    "  \"switchTableOffsetOffset\": 18446744073709551615\n\x7d"

/-- The widest layout is written by name, and read by name or by place, with its count or without. A
name that is spelled in another way is refused. -/
theorem ofText_schema_widest :
    widest.InRange ∧ widest.toJson = widestText ∧ ofText widestText = .ok widest ∧
      ofText shuffledText = .ok widest ∧
      ofText "[1, 2, 3, 4, 5]" = .ok ⟨1, 2, 3, 4, 5, none⟩ ∧
      ∀ l, ofText "\x7b\"expected_count\": 7\x7d" ≠ .ok l := by
  have hrange : widest.InRange := by decide
  have hwritten : widest.toJson = widestText := by decide +kernel
  rcases ofText_schema with ⟨-, hshows, -, -, hback⟩
  have hread := (hback widest hrange).2
  rw [hwritten] at hread
  refine ⟨hrange, hwritten, hread, (hshows _ _).2 ?_, (hshows _ _).2 ?_, ?_⟩
  · have htext : shuffledText = Json.objectOfNumbers .pretty
        [("expectedCount", -0x8000_0000), ("switchTableDataOffsetOffset", 40),
          ("defaultCaseAddrOffset", 23), ("switchTableCountOffset", 0),
          ("imageBaseOffsetOffset", 30),
          ("switchTableOffsetOffset", 0xFFFF_FFFF_FFFF_FFFF)] := by decide +kernel
    rw [htext]
    refine ⟨_, Json.document_objectOfNumbers .pretty ?_, ⟨by decide, by decide⟩, ⟨rfl, by decide⟩,
      ⟨rfl, by decide⟩, ⟨rfl, by decide⟩, ⟨rfl, by decide⟩, ⟨rfl, by decide⟩, .number (by decide)⟩
    unfold Json.Fits
    decide
  · exact ⟨.list [.number (.integer 1), .number (.integer 2), .number (.integer 3),
      .number (.integer 4), .number (.integer 5)], rfl, .inl rfl, ⟨rfl, by decide⟩,
      ⟨rfl, by decide⟩, ⟨rfl, by decide⟩, ⟨rfl, by decide⟩, ⟨rfl, by decide⟩, .absent⟩
  · intro l hl
    rcases (hshows _ _).1 hl with ⟨v, hdocument, hshown⟩
    obtain rfl : .object [("expected_count", .number (.integer 7))] = v := Except.ok.inj hdocument
    have hname := hshown.shaped.2 _ List.mem_cons_self
    exact absurd hname (by decide)

end OpcodeAtlas.Layout
