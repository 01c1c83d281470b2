import OpcodeAtlas.Dispatch.CaseBody
import OpcodeAtlas.Dispatch.Header

/-!
# OpcodeAtlas.Dispatch.Decode — the cases of a switch

Decoding walks the jump table from index zero to the highest index and keeps every entry that does
not lead to the default case. An entry that cannot be read ends the walk; a body that tells no slot
does not.

* `Walk` — the cases that a walk has kept, and what ended it early;
* `Layout.decode` — header, check of the expected count, and walk.
-/

namespace OpcodeAtlas

/-- One case of the switch that is not the default. -/
structure Case where
  index : Nat
  opcode : Int
  /-- The position of the body. -/
  target : Int
  /-- The handler slot, `none` when the body does not tell it. -/
  slot : Option Int
deriving DecidableEq, Repr

/-- What to do about a table size other than the expected one. -/
inductive MismatchPolicy where
  | lenient | strict
deriving DecidableEq, Repr

namespace SwitchHeader

/-- Where the table entry with the given index leads. -/
def readTarget (h : SwitchHeader) (image : Image) (index : Nat) : Except DecodeError Int :=
  (DispatchField.tableEntry.reading (image.readI32At (h.entryPosition index))).map
    (h.imageBase + ·)

/-- The case of a table entry that leads to `target`. -/
def caseAt (h : SwitchHeader) (image : Image) (index : Nat) (target : Int) : Case :=
  { index, opcode := h.opcode index, target, slot := CaseBody.slot image target }

end SwitchHeader

/-! ## The walk over the table -/

/-- The cases kept by a walk, and the failure that ended it before the last index. -/
structure Walk where
  cases : List Case
  failure : Option DecodeError
deriving DecidableEq, Repr

namespace Walk

/-- Walks `remaining` table entries from `index` on; `found` holds the cases before, last first. -/
def resume (h : SwitchHeader) (image : Image) :
    (remaining index : Nat) → (found : List Case) → Walk
  | 0, _, found => ⟨found.reverse, none⟩
  | remaining + 1, index, found =>
    match h.readTarget image index with
    | .error failure => ⟨found.reverse, some failure⟩
    | .ok target =>
      resume h image remaining (index + 1)
        (if target = h.defaultCase then found else h.caseAt image index target :: found)

/-- Walks the whole table; the highest index is part of it, and a negative one makes it empty. -/
def ofHeader (h : SwitchHeader) (image : Image) : Walk :=
  if h.count < 0 then ⟨[], none⟩ else resume h image (h.count.toNat + 1) 0 []

/-- The cases of a walk that came to its end. -/
def result (w : Walk) : Except DecodeError (List Case) :=
  match w.failure with
  | some failure => .error failure
  | none => .ok w.cases

end Walk

/-! ## Decoding -/

/-- Refuses a table size other than the expected one if the policy is strict. -/
def Layout.checkCount (layout : Layout) (policy : MismatchPolicy) (h : SwitchHeader) :
    Except DecodeError Unit :=
  match policy, layout.expectedCount with
  | .strict, some expected =>
    if expected = h.count then .ok () else .error (.countMismatch expected h.count)
  | _, _ => .ok ()

/-- The cases of the switch whose signature matched at `start`, in the order of the table. -/
def Layout.decode (layout : Layout) (policy : MismatchPolicy) (image : Image) (start : Nat) :
    Except DecodeError (List Case) := do
  let h ← layout.readHeader image start
  layout.checkCount policy h
  (Walk.ofHeader h image).result

end OpcodeAtlas
