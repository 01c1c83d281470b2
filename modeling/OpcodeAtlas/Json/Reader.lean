import OpcodeAtlas.Json.Number
import OpcodeAtlas.Json.Text

/-!
# OpcodeAtlas.Json.Reader — reading documents

* `nextItem?`, `nextKey?` — the way from one part of a list or an object to the next;
* `closeList`, `closeObject` — the end of a list or an object, looked for after a fault, too;
* `value` — the reader of a document part, for a given number of levels that it may still hold;
* `document` — the reader of a whole document.

Lists and objects are read in at most `bound` rounds. Every round takes a byte, so the length of the
whole feed is bound enough.
-/

namespace OpcodeAtlas.Json

/-- How many lists and objects may stand inside each other. -/
def maxDepth : Nat := 127

/-! ## Parts of lists and objects -/

/-- The feed from the next item of a list on, or nothing in front of the closing bracket. -/
def nextItem? (first : Bool) (feed : Feed) : Except Failure (Option Feed × Feed) := do
  let feed ← skipBlank feed
  match feed with
  | some 0x5D :: _ => return (none, feed)
  | some b :: rest =>
    if first then return (some feed, feed)
    else if b = 0x2C then
      let rest ← skipBlank rest
      match rest with
      | some 0x5D :: _ => throw (.seen .trailingComma rest)
      | [] => throw (.seen .endOfValue rest)
      | _ => return (some rest, rest)
    else throw (.seen .expectedListEnd feed)
  | _ => throw (.seen .endOfList feed)

/-- The next key of an object with the feed behind it, or nothing in front of the closing brace. -/
def nextKey? (first : Bool) (feed : Feed) : Except Failure (Option String × Feed) := do
  let feed ← skipBlank feed
  match feed with
  | some 0x7D :: _ => return (none, feed)
  | some b :: rest =>
    if first then
      if b = 0x22 then key rest else throw (.seen .keyNotText feed)
    else if b = 0x2C then
      let rest ← skipBlank rest
      match rest with
      | some 0x22 :: inner => key inner
      | some 0x7D :: _ => throw (.seen .trailingComma rest)
      | [] => throw (.seen .endOfValue rest)
      | _ => throw (.seen .keyNotText rest)
    else throw (.seen .expectedObjectEnd feed)
  | _ => throw (.seen .endOfObject feed)
where
  /-- The key behind its opening quote. -/
  key (feed : Feed) : Except Failure (Option String × Feed) :=
    (text feed).map fun (s, rest) => (some s, rest)

/-- Takes the colon between a key and its value. -/
def colon (feed : Feed) : Except Failure Feed := do
  let feed ← skipBlank feed
  match feed with
  | some 0x3A :: rest => return rest
  | [] => throw (.seen .endOfObject feed)
  | _ => throw (.seen .expectedColon feed)

/-- Takes the closing bracket of a list. -/
def closeList (feed : Feed) : Except Failure Feed := do
  let feed ← skipBlank feed
  match feed with
  | some 0x5D :: rest => return rest
  | some 0x2C :: rest =>
    -- One more look tells a comma too many from an item too many.
    match skipBlank rest with
    | .ok (some 0x5D :: after) => throw (.taken .trailingComma after)
    | .ok after => throw (.seen .trailingCharacters after)
    | .error failure => throw (.taken .trailingCharacters failure.unread)
  | [] => throw (.seen .endOfList feed)
  | _ => throw (.seen .trailingCharacters feed)

/-- Takes the closing brace of an object. -/
def closeObject (feed : Feed) : Except Failure Feed := do
  let feed ← skipBlank feed
  match feed with
  | some 0x7D :: rest => return rest
  | some 0x2C :: _ => throw (.seen .trailingComma feed)
  | [] => throw (.seen .endOfObject feed)
  | _ => throw (.seen .trailingCharacters feed)

/-- Gives a failure without a place the one that is reached by looking for the end of the list or
object around it. -/
def Failure.placeBy (failure : Failure) (close : Feed → Except Failure Feed) : Failure :=
  if failure.placed then failure
  else match close failure.unread with
    | .ok rest => ⟨failure.fault, rest, true⟩
    | .error other => ⟨failure.fault, other.unread, true⟩

/-- Reads the parts between an opening and a closing mark, and the closing mark. -/
def enclosed {α : Type} (parts : Step α) (close : Feed → Except Failure Feed) : Step α :=
  fun feed => match parts feed with
    | .error failure => .error (failure.placeBy close)
    | .ok (found, rest) => (close rest).map (found, ·)

/-- The items of a list up to its closing bracket. -/
def items {α : Type} (item : Step α) : (bound : Nat) → (first : Bool) → Step (List α)
  | 0, _, feed => .error (.seen .endOfList feed)
  | bound + 1, first, feed => do
    match ← nextItem? first feed with
    | (none, rest) => return ([], rest)
    | (some feed, _) =>
      let (x, rest) ← item feed
      let (others, rest) ← items item bound false rest
      return (x :: others, rest)

/-- The members of an object up to its closing brace. -/
def members {α : Type} (item : Step α) : (bound : Nat) → (first : Bool) → Step (List (String × α))
  | 0, _, feed => .error (.seen .endOfObject feed)
  | bound + 1, first, feed => do
    match ← nextKey? first feed with
    | (none, rest) => return ([], rest)
    | (some key, rest) =>
      let (x, rest) ← item (← colon rest)
      let (others, rest) ← members item bound false rest
      return ((key, x) :: others, rest)

/-! ## Documents -/

/-- Reads a document part that is neither a list nor an object; `first` is its first byte, which has
been looked at and stands at the front of the feed. -/
def scalar (first : UInt8) (feed : Feed) : Except Failure (Value × Feed) :=
  if first = 0x6E then (expect [0x75, 0x6C, 0x6C] feed.tail).map (.null, ·)
  else if first = 0x74 then (expect [0x72, 0x75, 0x65] feed.tail).map (.boolean true, ·)
  else if first = 0x66 then (expect [0x61, 0x6C, 0x73, 0x65] feed.tail).map (.boolean false, ·)
  else if first = 0x2D then (number true feed.tail).map fun (n, rest) => (.number n, rest)
  else if (digit? first).isSome then (number false feed).map fun (n, rest) => (.number n, rest)
  else if first = 0x22 then (text feed.tail).map fun (s, rest) => (.text s, rest)
  else .error (.seen .expectedValue feed)

/-- Reads a document part that may hold `depth` levels of lists and objects. -/
def value (bound : Nat) : (depth : Nat) → Step Value
  | 0, feed => do
    let feed ← skipBlank feed
    match feed with
    | some b :: _ => if b = 0x5B ∨ b = 0x7B then throw (.seen .tooDeep feed) else scalar b feed
    | _ => throw (.seen .endOfValue feed)
  | depth + 1, feed => do
    let feed ← skipBlank feed
    match feed with
    | some b :: rest =>
      if b = 0x5B then
        let (found, rest) ← enclosed (items (value bound depth) bound true) closeList rest
        return (.list found, rest)
      else if b = 0x7B then
        let (found, rest) ← enclosed (members (value bound depth) bound true) closeObject rest
        return (.object found, rest)
      else scalar b feed
    | _ => throw (.seen .endOfValue feed)

/-- Checks that only blanks are left. -/
def finish (feed : Feed) : Except Failure Unit := do
  match ← skipBlank feed with
  | [] => return ()
  | rest => throw (.seen .trailingCharacters rest)

/-- Reads a whole document. -/
def document (feed : Feed) : Except Failure Value := do
  let (v, rest) ← value (feed.length + 1) maxDepth feed
  finish rest
  return v

end OpcodeAtlas.Json
