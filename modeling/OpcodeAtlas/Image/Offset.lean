/-!
# OpcodeAtlas.Image.Offset — 64-bit offsets

Offsets into an image are unsigned and 64 bits wide. Two ways to add them:

* `checkedAdd` gives nothing when the exact sum needs more than 64 bits (`checkedAdd_eq_some_iff`);
* `saturatingAdd` stops at the largest offset (`saturatingAdd_eq_min`).
-/

namespace OpcodeAtlas.Offset

/-- One more than the largest offset. -/
def limit : Nat := 0x1_0000_0000_0000_0000

/-- The exact sum, if it is an offset. -/
def checkedAdd (a b : Nat) : Option Nat :=
  if a + b < limit then some (a + b) else none

/-- The exact sum, or the largest offset if that is smaller. -/
def saturatingAdd (a b : Nat) : Nat :=
  if a + b < limit then a + b else limit - 1

theorem checkedAdd_eq_some_iff {a b c : Nat} :
    checkedAdd a b = some c ↔ a + b = c ∧ c < limit := by
  unfold checkedAdd
  split <;> simp <;> omega

theorem saturatingAdd_eq_min (a b : Nat) : saturatingAdd a b = min (a + b) (limit - 1) := by
  unfold saturatingAdd limit
  split <;> omega

end OpcodeAtlas.Offset
