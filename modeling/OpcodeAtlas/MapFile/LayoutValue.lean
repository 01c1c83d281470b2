import OpcodeAtlas.Json.Writer
import OpcodeAtlas.MapFile.Mismatch

/-!
# OpcodeAtlas.MapFile.LayoutValue — layouts as JSON values

A layout is an object with the members of `Layout.Field`, or a list of their values in the order of
declaration. The five offsets are required; the expected count may be absent or null. No other member
may stand in the object, and none twice.

* `LayoutDraft` — the members found so far; `LayoutDraft.finish` asks for the missing ones;
* `Layout.ofValue` — a layout from a value, whose members are met in the order of their keys;
* `Layout.toJson` — a layout as an object.
-/

namespace OpcodeAtlas

/-- The members found so far, each with its number, `none` for a null count. -/
abbrev LayoutDraft := List (Layout.Field × Option Int)

namespace LayoutDraft

/-- The offset found for a member. -/
def offset (draft : LayoutDraft) (field : Layout.Field) : Except Mismatch Nat :=
  match draft.lookup field with
  | some (some n) => .ok n.toNat
  | _ => .error (.missingMember field)

/-- The layout with the members found, if no required one is missing. -/
def finish (draft : LayoutDraft) : Except Mismatch Layout := do
  let bias ← draft.offset .bias
  let count ← draft.offset .count
  let defaultCase ← draft.offset .defaultCase
  let imageBase ← draft.offset .imageBase
  let tableData ← draft.offset .tableData
  let expectedCount := (draft.lookup .expectedCount).join
  return { bias, count, defaultCase, imageBase, tableData, expectedCount }

/-- The member with a key, which must be known and new. -/
def claim (draft : LayoutDraft) (key : String) : Except Mismatch Layout.Field :=
  match Layout.Field.ofKey? key with
  | none => .error (.unknownMember key)
  | some field =>
    if (draft.lookup field).isSome then .error (.repeatedMember field) else .ok field

end LayoutDraft

namespace Layout

/-- The kind of integer that a member asks for. -/
def Field.kind : Field → IntegerKind
  | .expectedCount => .i32
  | _ => .offset

/-- The number of a member. -/
def Field.numberOf (field : Field) (v : Json.Value) : Except Mismatch (Option Int) :=
  match field, v with
  | .expectedCount, .null => .ok none
  | field, v => (integerOf field.kind v).map some

/-- The members of a list, `index` being the place of the first. -/
def draftOfItems : (fields : List Field) → (index : Nat) → List Json.Value →
    Except Mismatch LayoutDraft
  | [], index, items => if items.isEmpty then .ok [] else .error (.tooMany (index + items.length))
  | field :: _, index, [] =>
    if field = .expectedCount then .ok [] else .error (.tooFew index)
  | field :: fields, index, v :: items => do
    let n ← field.numberOf v
    return (field, n) :: (← draftOfItems fields (index + 1) items)

/-- The members of an object, behind those found before. -/
def draftOfMembers (draft : LayoutDraft) : List (String × Json.Value) → Except Mismatch LayoutDraft
  | [] => .ok draft
  | (key, v) :: rest => do
    let field ← draft.claim key
    let n ← field.numberOf v
    draftOfMembers ((field, n) :: draft) rest

/-- The layout that a value describes. -/
def ofValue : Json.Value → Except Mismatch Layout
  | .list items => do (← draftOfItems Field.all 0 items).finish
  | .object members => do (← draftOfMembers [] (Json.canonicalMembers members)).finish
  | other => .error (.kind (.ofValue other) .layout)

/-- The layout as an object in one line. -/
def toJson (l : Layout) : String := Json.objectOfNumbers .compact l.members

end Layout

end OpcodeAtlas
