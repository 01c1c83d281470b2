/-!
# OpcodeAtlas.Text.Blank — white space

The characters of the property White_Space, and text without them.

* `mem_toList_strip` — what stripping keeps;
* `strip_strip` — stripping twice is stripping once.
-/

namespace OpcodeAtlas.Text

/-- True of the 25 characters with the property White_Space. -/
def isBlank (c : Char) : Bool :=
  let n := c.toNat
  (0x09 ≤ n && n ≤ 0x0D) || n == 0x20 || n == 0x85 || n == 0xA0 || n == 0x1680 ||
    (0x2000 ≤ n && n ≤ 0x200A) || n == 0x2028 || n == 0x2029 || n == 0x202F || n == 0x205F ||
    n == 0x3000

/-- The text without its white space. -/
def strip (s : String) : String := String.ofList (s.toList.filter fun c => !isBlank c)

@[simp]
theorem toList_strip (s : String) : (strip s).toList = s.toList.filter fun c => !isBlank c := by
  simp [strip]

theorem mem_toList_strip {s : String} {c : Char} :
    c ∈ (strip s).toList ↔ c ∈ s.toList ∧ isBlank c = false := by
  simp

theorem strip_strip (s : String) : strip (strip s) = strip s := by
  simp [strip]

end OpcodeAtlas.Text
