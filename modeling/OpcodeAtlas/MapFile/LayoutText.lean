import OpcodeAtlas.Json.Reader
import OpcodeAtlas.MapFile.LayoutValue

/-!
# OpcodeAtlas.MapFile.LayoutText — layouts read straight from text

The second way to a layout takes its members from the text as they come, in the order of the text, and
stops at the first fault or mismatch that it meets. Comments are no part of such a text.

* `LayoutFault` — a fault of the text or a mismatch of its values;
* `Layout.ofText` — the layout that a text describes.
-/

namespace OpcodeAtlas

/-- Why a text describes no layout. -/
inductive LayoutFault where
  | json (cause : Json.Fault)
  | mismatch (cause : Mismatch)

/-- The wording of a layout fault. -/
def LayoutFault.message : LayoutFault → String
  | .json cause => cause.message
  | .mismatch cause => cause.message

namespace LayoutText

open Json (Feed Failure)

/-- A step that takes items and may meet a value of another kind. -/
abbrev Step (α : Type) := Feed → Except LayoutFault (α × Feed)

/-- A step of the reader of documents. -/
def reading {α : Type} (step : Except Failure α) : Except LayoutFault α :=
  step.mapError fun failure => .json failure.fault

/-- A check of a value. -/
def checking {α : Type} (check : Except Mismatch α) : Except LayoutFault α :=
  check.mapError .mismatch

/-- Reports what stands at the front of the feed instead of what is asked for. The inside of a list or
an object is not looked at. -/
def refuse {α : Type} (wanted : Wanted) (feed : Feed) : Except LayoutFault α := do
  match feed with
  | some 0x5B :: _ => throw (.mismatch (.kind .list wanted))
  | some 0x7B :: _ => throw (.mismatch (.kind .object wanted))
  | some b :: _ =>
    let (v, _) ← reading (Json.scalar b feed)
    throw (.mismatch (.kind (.ofValue v) wanted))
  | _ => throw (.json .endOfValue)

/-- Reads an integer of a kind. -/
def integer (kind : IntegerKind) : Step Int := fun feed => do
  let feed ← reading (Json.skipBlank feed)
  match feed with
  | some b :: rest =>
    if b = 0x2D then
      let (n, rest) ← reading (Json.number true rest)
      return (← checking (integerOfNumber kind n), rest)
    else if (Json.digit? b).isSome then
      let (n, rest) ← reading (Json.number false feed)
      return (← checking (integerOfNumber kind n), rest)
    else refuse (.integer kind) feed
  | _ => throw (.json .endOfValue)

/-- Reads the number of a member. -/
def member (field : Layout.Field) : Step (Option Int) := fun feed => do
  let feed ← reading (Json.skipBlank feed)
  match field, feed with
  | .expectedCount, some 0x6E :: rest =>
    return (none, ← reading (Json.expect [0x75, 0x6C, 0x6C] rest))
  | field, feed =>
    let (n, rest) ← integer field.kind feed
    return (some n, rest)

/-- Reads the items of a list, `index` being the place of the first. -/
def items : (fields : List Layout.Field) → (index : Nat) → Step LayoutDraft
  | [], _, feed => .ok ([], feed)
  | field :: fields, index, feed => do
    match ← reading (Json.nextItem? (index == 0) feed) with
    | (none, rest) =>
      if field = .expectedCount then return ([], rest) else throw (.mismatch (.tooFew index))
    | (some feed, _) =>
      let (n, rest) ← member field feed
      let (draft, rest) ← items fields (index + 1) rest
      return ((field, n) :: draft, rest)

/-- Reads the members of an object in at most `bound` rounds, behind those found before. -/
def members (draft : LayoutDraft) : (bound : Nat) → (first : Bool) → Step LayoutDraft
  | 0, _, _ => .error (.json .endOfObject)
  | bound + 1, first, feed => do
    match ← reading (Json.nextKey? first feed) with
    | (none, rest) => return (draft, rest)
    | (some key, rest) =>
      let field ← checking (draft.claim key)
      let (n, rest) ← member field (← reading (Json.colon rest))
      members ((field, n) :: draft) bound false rest

/-- Reads a layout. -/
def layout (bound : Nat) : Step Layout := fun feed => do
  let feed ← reading (Json.skipBlank feed)
  match feed with
  | some 0x5B :: rest =>
    let (draft, rest) ← items Layout.Field.all 0 rest
    let l ← checking draft.finish
    return (l, ← reading (Json.closeList rest))
  | some 0x7B :: rest =>
    let (draft, rest) ← members [] bound true rest
    let l ← checking draft.finish
    return (l, ← reading (Json.closeObject rest))
  | feed => refuse .layout feed

end LayoutText

/-- The layout that a text describes. -/
def Layout.ofText (text : String) : Except LayoutFault Layout := do
  let feed := Json.Feed.ofBytes (Text.utf8 text)
  let (l, rest) ← LayoutText.layout (feed.length + 1) feed
  LayoutText.reading (Json.finish rest)
  return l

end OpcodeAtlas
