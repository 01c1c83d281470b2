import OpcodeAtlas.Proofs.Dispatch.Cases

/-!
# OpcodeAtlas.Proofs.Dispatch.ExpectedCount — what an expected highest index decides

A layout may tell the highest table index to expect. Between header and walk it is compared with the
one that the header holds, and there alone does decoding look at it and at the policy:

* `decode_of_permitted` — headers that are found alike and permitted are decoded alike;
* `decode_of_countDiffers` — the strict policy refuses a header with another highest index
  (`CountDiffers`), whatever the table holds;
* `countDiffers_of_decode` — nothing else is refused for its highest index;
* `decode_expectedCount` — the two policies side by side.
-/

namespace OpcodeAtlas

/-! ## Failures that come from the image -/

/-- A number that cannot be read is told as such. -/
theorem DispatchField.unreadable_of_reading {α : Type} {field : DispatchField}
    {read : Except ReadError α} {e : DecodeError} (h : field.reading read = .error e) :
    ∃ cause, e = .unreadable field cause := by
  cases read with
  | ok value => cases h
  | error cause => exact ⟨cause, (Except.error.inj h).symm⟩

/-- A chain that starts with a number fails for that number or behind it. -/
theorem DispatchField.unreadable_of_bind {α β : Type} {field : DispatchField}
    {read : Except ReadError α} {rest : α → Except DecodeError β} {e : DecodeError}
    (h : field.reading read >>= rest = .error e)
    (hrest : ∀ a, rest a = .error e → ∃ field cause, e = .unreadable field cause) :
    ∃ field cause, e = .unreadable field cause := by
  rcases Outcome.bind_eq_error.1 h with hfails | ⟨a, -, hbehind⟩
  · exact ⟨field, unreadable_of_reading hfails⟩
  · exact hrest a hbehind

/-- A walk fails for an entry that cannot be read, and for no other reason. -/
theorem Walk.unreadable_of_result {h : SwitchHeader} {image : Image} {e : DecodeError}
    (hwalk : (Walk.ofHeader h image).result = .error e) :
    ∃ cause, e = .unreadable .tableEntry cause := by
  rcases lt_or_ge h.count 0 with hnegative | hcount
  · rw [result_of_negative hnegative] at hwalk
    cases hwalk
  · by_cases hreads : ∀ i : Nat, (i : Int) ≤ h.count → h.Readable image i
    · rw [result_of_readable hcount hreads] at hwalk
      cases hwalk
    · rcases exists_first_unreadable hreads with ⟨i, found, hi, hbefore, hfails⟩
      rw [result_of_unreadable hcount hi hbefore hfails] at hwalk
      cases hwalk
      rw [← Outcome.fault?_eq_some_iff, SwitchHeader.readTarget, Outcome.fault?_map,
        Outcome.fault?_eq_some_iff] at hfails
      exact DispatchField.unreadable_of_reading hfails

namespace Layout

variable {layout layout' : Layout} {policy policy' : MismatchPolicy} {image : Image} {start : Nat}
  {h : SwitchHeader}

/-- A header fails for one of its numbers. -/
theorem unreadable_of_readHeader {e : DecodeError}
    (hread : layout.readHeader image start = .error e) :
    ∃ field cause, e = .unreadable field cause := by
  refine DispatchField.unreadable_of_bind hread fun bias hread => ?_
  refine DispatchField.unreadable_of_bind hread fun count hread => ?_
  refine DispatchField.unreadable_of_bind hread fun defaultCase hread => ?_
  refine DispatchField.unreadable_of_bind hread fun imageBase hread => ?_
  refine DispatchField.unreadable_of_bind hread fun tableData hread => ?_
  cases hread

/-- A header that cannot be read ends decoding, whatever the policy. -/
theorem decode_of_readHeader_error {e : DecodeError}
    (hread : layout.readHeader image start = .error e) :
    layout.decode policy image start = .error e := by
  rw [decode, hread, Outcome.error_bind]

/-! ## The check -/

/-- The layout without a highest index to expect. -/
def anyCount (layout : Layout) : Layout := { layout with expectedCount := none }

/-- The layout expects a highest index and finds a header with another one. -/
structure CountDiffers (layout : Layout) (image : Image) (start : Nat) (expected found : Int) :
    Prop where
  expects : layout.expectedCount = some expected
  finds : ∃ h, layout.readHeader image start = .ok h ∧ h.count = found
  differs : expected ≠ found

@[simp]
theorem readHeader_anyCount :
    layout.anyCount.readHeader image start = layout.readHeader image start := rfl

@[simp]
theorem checkCount_anyCount : layout.anyCount.checkCount policy h = .ok () := by
  cases policy <;> rfl

@[simp]
theorem checkCount_lenient : layout.checkCount .lenient h = .ok () := rfl

/-- Only the strict policy refuses a header, and only for another highest index than the expected
one. -/
theorem checkCount_eq_error_iff {e : DecodeError} :
    layout.checkCount policy h = .error e ↔ policy = .strict ∧ ∃ expected,
      layout.expectedCount = some expected ∧ expected ≠ h.count ∧
        e = .countMismatch expected h.count := by
  cases policy with
  | lenient => simp
  | strict =>
    cases hexpected : layout.expectedCount with
    | none => simp [checkCount, hexpected]
    | some expected =>
      by_cases hcount : expected = h.count <;> simp [checkCount, hexpected, hcount, eq_comm]

/-- What is not refused is permitted. -/
theorem checkCount_of_not_differs (hread : layout.readHeader image start = .ok h)
    (hsame : ∀ expected found, ¬layout.CountDiffers image start expected found) :
    layout.checkCount policy h = .ok () := by
  cases hcheck : layout.checkCount policy h with
  | ok permitted => rfl
  | error e =>
    rcases checkCount_eq_error_iff.1 hcheck with ⟨-, expected, hexpected, hdiffers, -⟩
    exact absurd ⟨hexpected, ⟨h, hread, rfl⟩, hdiffers⟩ (hsame expected h.count)

/-! ## Decoding -/

/-- Where two layouts find the same header or fail for the same number, and both permit what they
find, they decode alike. -/
theorem decode_of_permitted
    (hread : layout.readHeader image start = layout'.readHeader image start)
    (hcheck : ∀ h, layout.readHeader image start = .ok h →
      layout.checkCount policy h = .ok () ∧ layout'.checkCount policy' h = .ok ()) :
    layout.decode policy image start = layout'.decode policy' image start := by
  cases hheader : layout.readHeader image start with
  | error e =>
    rw [decode_of_readHeader_error hheader, decode_of_readHeader_error (hread ▸ hheader)]
  | ok h =>
    rcases hcheck h hheader with ⟨hpermitted, hpermitted'⟩
    rw [decode_of_readHeader hheader hpermitted, decode_of_readHeader (hread ▸ hheader) hpermitted']

theorem decode_lenient (policy : MismatchPolicy) :
    layout.decode .lenient image start = layout.anyCount.decode policy image start :=
  decode_of_permitted readHeader_anyCount.symm fun _ _ => ⟨checkCount_lenient, checkCount_anyCount⟩

theorem decode_of_not_differs
    (hsame : ∀ expected found, ¬layout.CountDiffers image start expected found) :
    layout.decode policy image start = layout.decode .lenient image start :=
  decode_of_permitted rfl fun _ hread =>
    ⟨checkCount_of_not_differs hread hsame, checkCount_lenient⟩

/-- The strict policy refuses another highest index before it looks at the table. -/
theorem decode_of_countDiffers {expected found : Int}
    (hdiffers : layout.CountDiffers image start expected found) :
    layout.decode .strict image start = .error (.countMismatch expected found) := by
  rcases hdiffers with ⟨hexpected, ⟨h, hread, rfl⟩, hne⟩
  have hcheck : layout.checkCount .strict h = .error (.countMismatch expected h.count) :=
    checkCount_eq_error_iff.2 ⟨rfl, expected, hexpected, hne, rfl⟩
  rw [decode, hread, Outcome.ok_bind, hcheck, Outcome.error_bind]

/-- A highest index is refused only by the strict policy and only if it is not the expected one. -/
theorem countDiffers_of_decode {expected found : Int}
    (hdecode : layout.decode policy image start = .error (.countMismatch expected found)) :
    policy = .strict ∧ layout.CountDiffers image start expected found := by
  rcases Outcome.bind_eq_error.1 hdecode with hread | ⟨h, hread, hrest⟩
  · rcases unreadable_of_readHeader hread with ⟨field, cause, he⟩
    cases he
  · rcases Outcome.bind_eq_error.1 hrest with hcheck | ⟨_, -, hwalk⟩
    · rcases checkCount_eq_error_iff.1 hcheck with ⟨hstrict, _, hexpected, hne, he⟩
      cases he
      exact ⟨hstrict, hexpected, ⟨h, hread, rfl⟩, hne⟩
    · rcases Walk.unreadable_of_result hwalk with ⟨cause, he⟩
      cases he

/-- The lenient policy decodes as if no highest index were expected, and so does the strict one
unless the header can be read and holds another highest index than the expected one. Then the two
indices are told, even if the one in the header is negative or the table cannot be read, and they
are told in no other case. So what the strict policy decodes the lenient one decodes alike, and a
header that cannot be read has the same fault under both. -/
theorem decode_expectedCount (layout : Layout) (image : Image) (start : Nat) :
    (∀ policy, layout.decode .lenient image start = layout.anyCount.decode policy image start) ∧
    (∀ expected found, layout.CountDiffers image start expected found →
      layout.decode .strict image start = .error (.countMismatch expected found)) ∧
    ((∀ expected found, ¬layout.CountDiffers image start expected found) →
      layout.decode .strict image start = layout.decode .lenient image start) ∧
    (∀ policy expected found,
      layout.decode policy image start = .error (.countMismatch expected found) →
      policy = .strict ∧ layout.CountDiffers image start expected found) ∧
    (∀ cases, layout.decode .strict image start = .ok cases →
      layout.decode .lenient image start = .ok cases) ∧
    (∀ e, layout.readHeader image start = .error e →
      (∃ field cause, e = .unreadable field cause) ∧
      ∀ policy, layout.decode policy image start = .error e) := by
  refine ⟨decode_lenient, fun _ _ => decode_of_countDiffers, decode_of_not_differs,
    fun _ _ _ => countDiffers_of_decode, ?_, ?_⟩
  · intro cases hdecode
    -- A success leaves no room for a difference, and without one the policies agree.
    have hsame : ∀ expected found, ¬layout.CountDiffers image start expected found := by
      intro expected found hdiffers
      rw [decode_of_countDiffers hdiffers] at hdecode
      cases hdecode
    rw [← decode_of_not_differs hsame, hdecode]
  · intro e hread
    exact ⟨unreadable_of_readHeader hread, fun _ => decode_of_readHeader_error hread⟩

/-- Of a table that leaves the image the strict policy tells the highest index and the lenient one
the entry; a header that is as expected is decoded alike, and one that is cut off fails alike. -/
theorem decode_expectedCount_tightSwitch :
    decode { tight with expectedCount := some 2 } .strict (tightSwitch 9) 0 =
        .error (.countMismatch 2 9) ∧
      decode { tight with expectedCount := some 2 } .lenient (tightSwitch 9) 0 =
        .error (.unreadable .tableEntry (.outOfRange 37 4 40)) ∧
      decode { tight with expectedCount := some 2 } .lenient (tightSwitch 2) 0 =
        .ok [⟨0, 2, 29, some 1⟩, ⟨2, 4, 200, none⟩] ∧
      decode { tight with expectedCount := some 2 } .strict (tightSwitch 2) 40 =
        .error (.unreadable .bias (.outOfRange 40 1 40)) := by
  rcases decode_expectedCount { tight with expectedCount := some 2 } (tightSwitch 9) 0 with
    ⟨hlenient, hstrict, -⟩
  rcases decode_expectedCount { tight with expectedCount := some 2 } (tightSwitch 2) 0 with
    ⟨-, -, -, -, hsuccess, -⟩
  rcases decode_expectedCount { tight with expectedCount := some 2 } (tightSwitch 2) 40 with
    ⟨-, -, -, -, -, hfails⟩
  have hread : tight.readHeader (tightSwitch 9) 0 = .ok ⟨-2, 9, 40, 0, 17⟩ := rfl
  refine ⟨hstrict 2 9 ⟨rfl, ⟨_, hread, rfl⟩, by decide⟩, ?_, hsuccess _ rfl, (hfails _ rfl).2 _⟩
  rw [hlenient .strict]
  rfl

end Layout

end OpcodeAtlas
