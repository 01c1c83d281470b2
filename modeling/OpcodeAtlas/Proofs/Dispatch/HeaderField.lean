import OpcodeAtlas.Proofs.Dispatch.Cases
import OpcodeAtlas.Proofs.Dispatch.Description
import OpcodeAtlas.Proofs.Outcome

/-!
# OpcodeAtlas.Proofs.Dispatch.HeaderField — which number of a header is missing

A header is made of five numbers, each with an exact offset and a width (`Layout.headerFields`). It
can be read when all of them lie in the image; otherwise the first that does not is named:

* `readBytes_saturating` — a window at a saturated sum is read when the exact one lies in the image;
* `fault?_reading` — the fault of one number, `fault?_readHeader` — that of the header;
* `readHeader_windows` — when a header is read, what it holds, and how reading it fails.

An offset beyond 64 bits is told as the largest one, where no window fits.
-/

namespace OpcodeAtlas

open Outcome (fault? fault?_bind fault?_bind_pure)

variable {image : Image} {layout : Layout} {start : Nat}

/-! ## One number -/

/-- A window at a saturated sum is read when the window at the exact sum lies in the image. -/
theorem Image.readBytes_saturating (himage : image.Addressable) (a b : Nat) {width : Nat}
    (hwidth : 0 < width) :
    image.readBytes (Offset.saturatingAdd a b) width =
      if a + b + width ≤ image.size then .ok (image.slice (a + b) (a + b + width))
      else .error (.outOfRange (min (a + b) (2 ^ 64 - 1)) width image.size) := by
  have hlimit : Offset.limit = 2 ^ 64 := rfl
  unfold Addressable at himage
  rw [readBytes_eq, Offset.saturatingAdd_eq_min, hlimit]
  rw [hlimit] at himage
  by_cases hinside : a + b + width ≤ image.size
  · -- What lies in the image is far from the largest offset.
    have hexact : min (a + b) (2 ^ 64 - 1) = a + b := by omega
    rw [hexact, if_pos ⟨by omega, hinside⟩, if_pos hinside]
  · rw [if_neg (by omega), if_neg hinside]

/-! Whatever a number means, it cannot be read when its bytes cannot. -/

theorem Image.fault?_readI8 (offset : Nat) :
    fault? (image.readI8 offset) = fault? (image.readBytes offset 1) :=
  Outcome.fault?_map

theorem Image.fault?_readI32 (offset : Nat) :
    fault? (image.readI32 offset) = fault? (image.readBytes offset 4) :=
  Outcome.fault?_map

theorem Image.fault?_resolve (offset : Nat) :
    fault? (image.resolve offset) = fault? (image.readBytes offset 4) := by
  rw [resolve, span, displacement, Outcome.fault?_map, Outcome.fault?_map, fault?_readI32]

/-- A number of a header: what it tells, its exact offset and its width. -/
structure HeaderField where
  field : DispatchField
  offset : Nat
  width : Nat

/-- The fault of a number that does not lie in the image; an offset beyond 64 bits is told as the
largest one. -/
def HeaderField.fault? (image : Image) (f : HeaderField) : Option DecodeError :=
  if f.offset + f.width ≤ image.size then none
  else some (.unreadable f.field (.outOfRange (min f.offset (2 ^ 64 - 1)) f.width image.size))

theorem HeaderField.fault?_eq_none_iff {f : HeaderField} :
    f.fault? image = none ↔ f.offset + f.width ≤ image.size := by
  unfold fault?
  split <;> simp_all

/-- A number fails to be read at a saturated sum when its bytes at the exact one do not lie in the
image. -/
theorem DispatchField.fault?_reading (himage : image.Addressable) {α : Type} (field : DispatchField)
    {read : Except ReadError α} {distance width : Nat} (hwidth : 0 < width)
    (hread : fault? read = fault? (image.readBytes (Offset.saturatingAdd start distance) width)) :
    fault? (field.reading read) = HeaderField.fault? image ⟨field, start + distance, width⟩ := by
  rw [reading, Outcome.fault?_mapError, hread, image.readBytes_saturating himage _ _ hwidth,
    HeaderField.fault?]
  split <;> rfl

/-! ## The header -/

namespace Layout

/-- The numbers of the header, counted from `start`, in the order in which they are read. -/
def headerFields (layout : Layout) (start : Nat) : List HeaderField :=
  [⟨.bias, start + layout.bias, 1⟩, ⟨.count, start + layout.count, 4⟩,
    ⟨.defaultCase, start + layout.defaultCase, 4⟩, ⟨.imageBase, start + layout.imageBase, 4⟩,
    ⟨.tableData, start + layout.tableData, 4⟩]

/-- Reading a header fails with the fault of the first number that has one. -/
theorem fault?_readHeader (himage : image.Addressable) :
    fault? (layout.readHeader image start) =
      (layout.headerFields start).findSome? (HeaderField.fault? image) := by
  have hfour : 0 < 4 := by decide
  have hbias := DispatchField.bias.fault?_reading himage Nat.one_pos
    (Image.fault?_readI8 (Offset.saturatingAdd start layout.bias))
  have hcount := DispatchField.count.fault?_reading himage hfour
    (Image.fault?_readI32 (Offset.saturatingAdd start layout.count))
  have hdefault := DispatchField.defaultCase.fault?_reading himage hfour
    (Image.fault?_resolve (Offset.saturatingAdd start layout.defaultCase))
  have hbase := DispatchField.imageBase.fault?_reading himage hfour
    (Image.fault?_resolve (Offset.saturatingAdd start layout.imageBase))
  have hdata := DispatchField.tableData.fault?_reading himage hfour
    (Image.fault?_readI32 (Offset.saturatingAdd start layout.tableData))
  unfold readHeader headerFields
  -- The numbers are read one by one, and whether one can be read does not depend on the others.
  rw [fault?_bind fun _ _ => fault?_bind fun _ _ => fault?_bind fun _ _ => fault?_bind fun _ _ =>
    fault?_bind_pure]
  simp only [hbias, hcount, hdefault, hbase, hdata, Outcome.findSome?_cons_or, List.findSome?_nil,
    Option.or_none]

/-- A header can be read exactly when each of its five numbers lies in the image, at its exact sum
of offsets. What is read then is the header that the layout designates there. Otherwise the first
number that does not lie in the image is named, with its width and its offset, at most the largest
of 64 bits. -/
theorem readHeader_windows (himage : image.Addressable) (layout : Layout) (start : Nat) :
    ((∃ h, layout.readHeader image start = .ok h) ↔
      ∀ f ∈ layout.headerFields start, f.offset + f.width ≤ image.size) ∧
    (∀ h, layout.readHeader image start = .ok h ↔ layout.Describes image start h) ∧
    (∀ before f after, layout.headerFields start = before ++ f :: after →
      (∀ g ∈ before, g.offset + g.width ≤ image.size) → image.size < f.offset + f.width →
      layout.readHeader image start = .error (.unreadable f.field
        (.outOfRange (min f.offset (2 ^ 64 - 1)) f.width image.size))) ∧
    (layout.headerFields start).map (fun f => (f.field.name, f.offset, f.width)) =
      [("switchTableOffset", start + layout.bias, 1),
        ("switchTableCount", start + layout.count, 4),
        ("defaultCaseAddr", start + layout.defaultCase, 4),
        ("imageBaseOffset", start + layout.imageBase, 4),
        ("switchTableDataOffset", start + layout.tableData, 4)] := by
  have hfault : fault? (layout.readHeader image start) =
      (layout.headerFields start).findSome? (HeaderField.fault? image) := fault?_readHeader himage
  refine ⟨?_, ?_, ?_, rfl⟩
  · rw [← Outcome.fault?_eq_none_iff, hfault, List.findSome?_eq_none_iff]
    simp only [HeaderField.fault?_eq_none_iff]
  · intro h
    rw [readHeader_eq_ok_iff]
    exact ⟨And.right, fun hdescribes => ⟨hdescribes.fieldsAddressable himage, hdescribes⟩⟩
  · intro before f after hsplit hbefore houtside
    have hnone : before.findSome? (HeaderField.fault? image) = none := by
      rw [List.findSome?_eq_none_iff]
      exact fun g hg => HeaderField.fault?_eq_none_iff.2 (hbefore g hg)
    rw [← Outcome.fault?_eq_some_iff, hfault, hsplit, List.findSome?_append, hnone,
      Option.none_or, Outcome.findSome?_cons_or, HeaderField.fault?, if_neg (by omega)]
    rfl

/-- The header of the tight switch is read, with a bias and a distance below zero. A distance that
leads past the largest offset is told as that offset and does not wrap. -/
theorem readHeader_windows_pastLimit :
    tight.readHeader (tightSwitch 2) 0 =
        .ok { bias := -2, count := 2, defaultCase := 40, imageBase := 0, tableData := 17 } ∧
      readHeader { tight with imageBase := 2 ^ 64 - 1 } (tightSwitch 2) 3 =
        .error (.unreadable .imageBase (.outOfRange (2 ^ 64 - 1) 4 40)) := by
  have himage : (tightSwitch 2).Addressable := by decide
  constructor
  · rcases readHeader_windows himage tight 0 with ⟨-, hread, -, -⟩
    refine (hread _).2 ⟨?_, ?_, ?_, ?_, ?_⟩
    all_goals exact ⟨by decide, by decide, rfl⟩
  · rcases readHeader_windows himage { tight with imageBase := 2 ^ 64 - 1 } 3 with
      ⟨-, -, hfirst, -⟩
    exact hfirst [⟨.bias, 3, 1⟩, ⟨.count, 4, 4⟩, ⟨.defaultCase, 8, 4⟩]
      ⟨.imageBase, 2 ^ 64 + 2, 4⟩ [⟨.tableData, 16, 4⟩] rfl (by decide) (by decide)

end Layout

end OpcodeAtlas
