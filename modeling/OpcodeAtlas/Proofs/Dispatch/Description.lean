import OpcodeAtlas.Dispatch.Header
import OpcodeAtlas.Proofs.Image.Window

/-!
# OpcodeAtlas.Proofs.Dispatch.Description — which header a layout designates

A layout designates a header relative to a match when each of the five numbers stands at its exact
distance from the match (`Layout.Describes`). Headers are read at distances that saturate at the
largest offset; nothing can be read there, so that a saturated distance is never taken for an exact
one:

* `Offset.saturating_window_iff` — a window at a saturated sum that ends at an offset is the window
  at the exact sum;
* `readHeader_eq_ok_iff` — what is read is the header that the layout designates.
-/

namespace OpcodeAtlas

/-- Whatever stands in a window at a saturated sum stands at the exact sum, provided that the window
ends at an offset. -/
theorem Offset.saturating_window_iff {a b width : Nat} (hwidth : 0 < width) (P : Nat → Prop) :
    (saturatingAdd a b + width < limit ∧ P (saturatingAdd a b)) ↔
      a + b + width < limit ∧ P (a + b) := by
  by_cases hsum : a + b < limit
  · rw [saturatingAdd, if_pos hsum]
  · -- A saturated sum is the largest offset, and no window that starts there ends at an offset.
    have hleft : ¬saturatingAdd a b + width < limit := by
      rw [saturatingAdd, if_neg hsum]
      unfold limit
      omega
    constructor
    · exact fun h => absurd h.1 hleft
    · exact fun h => absurd h.1 (by omega)

namespace Layout

variable {layout : Layout} {image : Image} {start : Nat} {h h' : SwitchHeader}

/-- The header whose numbers stand where the layout says, counted from `start`. The default case
and the image base are references: what stands there is their distance from the byte behind it. -/
structure Describes (layout : Layout) (image : Image) (start : Nat) (h : SwitchHeader) : Prop where
  bias : image.SignedAt 1 (start + layout.bias : Nat) h.bias
  count : image.SignedAt 4 (start + layout.count : Nat) h.count
  defaultCase : image.SignedAt 4 (start + layout.defaultCase : Nat)
    (h.defaultCase - (start + layout.defaultCase : Nat) - 4)
  imageBase : image.SignedAt 4 (start + layout.imageBase : Nat)
    (h.imageBase - (start + layout.imageBase : Nat) - 4)
  tableData : image.SignedAt 4 (start + layout.tableData : Nat) h.tableData

/-- A layout designates one header only. -/
theorem Describes.unique (hd : layout.Describes image start h)
    (hd' : layout.Describes image start h') : h = h' := by
  have hdefault := hd.defaultCase.unique hd'.defaultCase
  have hbase := hd.imageBase.unique hd'.imageBase
  cases h
  cases h'
  simp only [SwitchHeader.mk.injEq]
  exact ⟨hd.bias.unique hd'.bias, hd.count.unique hd'.count, by simpa using hdefault,
    by simpa using hbase, hd.tableData.unique hd'.tableData⟩

/-- The last byte of every field has an offset of 64 bits. -/
structure FieldsAddressable (layout : Layout) (start : Nat) : Prop where
  bias : start + layout.bias + 1 < Offset.limit
  count : start + layout.count + 4 < Offset.limit
  defaultCase : start + layout.defaultCase + 4 < Offset.limit
  imageBase : start + layout.imageBase + 4 < Offset.limit
  tableData : start + layout.tableData + 4 < Offset.limit

/-- Fields that lie in an addressable image have offsets of 64 bits. -/
theorem Describes.fieldsAddressable (himage : image.Addressable)
    (hd : layout.Describes image start h) : layout.FieldsAddressable start := by
  have hbias := himage.lt_limit hd.bias.2.1
  have hcount := himage.lt_limit hd.count.2.1
  have hdefault := himage.lt_limit hd.defaultCase.2.1
  have hbase := himage.lt_limit hd.imageBase.2.1
  have hdata := himage.lt_limit hd.tableData.2.1
  constructor <;> omega

theorem readHeader_eq_ok_iff :
    layout.readHeader image start = .ok h ↔
      layout.FieldsAddressable start ∧ layout.Describes image start h := by
  have hreads : layout.readHeader image start = .ok h ↔
      image.readI8 (Offset.saturatingAdd start layout.bias) = .ok h.bias ∧
      image.readI32 (Offset.saturatingAdd start layout.count) = .ok h.count ∧
      image.resolve (Offset.saturatingAdd start layout.defaultCase) = .ok h.defaultCase ∧
      image.resolve (Offset.saturatingAdd start layout.imageBase) = .ok h.imageBase ∧
      image.readI32 (Offset.saturatingAdd start layout.tableData) = .ok h.tableData := by
    simp only [readHeader, DispatchField.reading, Outcome.bind_eq_ok, Outcome.mapError_eq_ok]
    constructor
    · rintro ⟨bias, hbias, count, hcount, defaultCase, hdefault, imageBase, hbase, tableData,
        hdata, hh⟩
      cases hh
      exact ⟨hbias, hcount, hdefault, hbase, hdata⟩
    · intro hex
      rcases hex with ⟨hbias, hcount, hdefault, hbase, hdata⟩
      exact ⟨_, hbias, _, hcount, _, hdefault, _, hbase, _, hdata, rfl⟩
  -- Each field is read at a saturated sum; what is found there is what the exact sum designates.
  have hfour : 0 < 4 := by decide
  rw [hreads, Image.readI8_eq_ok_iff, Image.readI32_eq_ok_iff, Image.resolve_eq_ok_iff,
    Image.resolve_eq_ok_iff, Image.readI32_eq_ok_iff,
    Offset.saturating_window_iff Nat.one_pos fun o : Nat => image.SignedAt 1 o h.bias,
    Offset.saturating_window_iff hfour fun o : Nat => image.SignedAt 4 o h.count,
    Offset.saturating_window_iff hfour
      fun o : Nat => image.SignedAt 4 o (h.defaultCase - o - 4),
    Offset.saturating_window_iff hfour
      fun o : Nat => image.SignedAt 4 o (h.imageBase - o - 4),
    Offset.saturating_window_iff hfour fun o : Nat => image.SignedAt 4 o h.tableData]
  constructor
  · intro hex
    rcases hex with ⟨⟨l₁, h₁⟩, ⟨l₂, h₂⟩, ⟨l₃, h₃⟩, ⟨l₄, h₄⟩, ⟨l₅, h₅⟩⟩
    exact ⟨⟨l₁, l₂, l₃, l₄, l₅⟩, ⟨h₁, h₂, h₃, h₄, h₅⟩⟩
  · intro hex
    rcases hex with ⟨⟨l₁, l₂, l₃, l₄, l₅⟩, ⟨h₁, h₂, h₃, h₄, h₅⟩⟩
    exact ⟨⟨l₁, h₁⟩, ⟨l₂, h₂⟩, ⟨l₃, h₃⟩, ⟨l₄, h₄⟩, ⟨l₅, h₅⟩⟩

theorem describes_of_readHeader (hread : layout.readHeader image start = .ok h) :
    layout.Describes image start h :=
  (readHeader_eq_ok_iff.1 hread).2

end Layout

end OpcodeAtlas
