import OpcodeAtlas.Signature.Pattern

/-!
# OpcodeAtlas.Signature.Scan — where a pattern stands

* `Pattern.scan` lists the offsets at which a pattern stands, ascending; overlapping occurrences and
  the last offset where the pattern fits are among them;
* `Pattern.findUnique` gives the only such offset, or how many there are;
* `offsetsBelow_eq` — the walk behind `scan` filters the offsets below a bound.
-/

namespace OpcodeAtlas.Pattern

/-- The offsets below a bound that pass the test, ascending, in front of those already found. -/
def offsetsBelow (test : Nat → Bool) : (bound : Nat) → (found : List Nat) → List Nat
  | 0, found => found
  | offset + 1, found =>
    offsetsBelow test offset (if test offset then offset :: found else found)

theorem offsetsBelow_eq (test : Nat → Bool) (bound : Nat) (found : List Nat) :
    offsetsBelow test bound found = (List.range bound).filter test ++ found := by
  induction bound generalizing found with
  | zero => simp [offsetsBelow]
  | succ offset ih =>
    rw [offsetsBelow, ih, List.range_succ, List.filter_append]
    by_cases h : test offset <;> simp [h]

/-- The number of offsets that leave room for the pattern. -/
def roomFor (p : Pattern) (image : Image) : Nat :=
  if image.size < p.length then 0 else image.size - p.length + 1

/-- The offsets at which the pattern stands, ascending. The first fixed byte sorts out most offsets
before the whole pattern is compared; a pattern of gaps stands wherever it fits. -/
def scan (p : Pattern) (image : Image) : List Nat :=
  match p.firstFixed with
  | some (anchor, b) =>
    offsetsBelow
      (fun offset => image.byte? (offset + anchor) == some b && p.matchesAt image offset)
      (p.roomFor image) []
  | none => offsetsBelow (fun _ => true) (p.roomFor image) []

/-- The offset of the only occurrence, or the number of occurrences. -/
def findUnique (p : Pattern) (image : Image) : Except Nat Nat :=
  match p.scan image with
  | [offset] => .ok offset
  | found => .error found.length

end OpcodeAtlas.Pattern
