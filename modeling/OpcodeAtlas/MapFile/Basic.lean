import OpcodeAtlas.Disk.Fault
import OpcodeAtlas.Image.Basic
import OpcodeAtlas.Json.Comment
import OpcodeAtlas.Json.Reader
import OpcodeAtlas.MapFile.LayoutValue
import OpcodeAtlas.Opcode.SlotNames
import OpcodeAtlas.Signature.Text

/-!
# OpcodeAtlas.MapFile.Basic — map files

A map file is a JSON object, possibly with comments, that tells how to find the dispatch function of an
executable and how its handlers are called. Its fields are looked at one by one and only when asked
for, so that a fault in one of them does not hide the others.

* `MapFile.ofBytes` — the file that bytes hold;
* `MapFile.method`, `signature`, `names`, `layout` — its fields;
* `MapFile.vtableConfig` — the fields that the `vtable` method needs.
-/

namespace OpcodeAtlas

/-! ## Faults -/

/-- The fields of a map file, `root` for the file as a whole. -/
inductive MapField where
  | root | method | signature | map | layout
deriving DecidableEq, Repr

/-- The key of a field. -/
def MapField.key : MapField → String
  | .root => "<root>"
  | .method => "method"
  | .signature => "signature"
  | .map => "map"
  | .layout => "layout"

/-- What is wrong with a field. -/
inductive SchemaFault where
  | notAnObject (found : Json.Value)
  | missing
  | mismatch (cause : Mismatch)
  /-- The slot given to a name cannot be an index of a vtable. -/
  | slotRange (slot : Int) (name : String)

/-- The kind of a value, as it is named where an object is expected. -/
def Json.Value.kindName : Json.Value → String
  | .null => "null"
  | .boolean _ => "a boolean"
  | .number _ => "a number"
  | .text _ => "a string"
  | .list _ => "an array"
  | .object _ => "an object"

/-- The wording of what is wrong with a field. -/
def SchemaFault.message : SchemaFault → String
  | .notAnObject found => s!"expected an object, found {found.kindName}"
  | .missing => "missing required field"
  | .mismatch cause => cause.message
  | .slotRange slot name => s!"slot {slot} for {name} is not a valid vtable index"

/-- Why a map file or one of its fields cannot be used. -/
inductive MapFileError where
  /-- The file could not be opened. -/
  | unopened (cause : DiskFault)
  /-- The file was opened and could not be read. -/
  | unread (cause : DiskFault)
  /-- The file is no JSON document. -/
  | json (fault : Json.Fault) (place : Option Json.Position)
  /-- A field is not what it should be. -/
  | schema (field : MapField) (fault : SchemaFault)

namespace MapFileError

/-- The wording of what lies behind an error, if anything does. -/
def cause? : MapFileError → Option String
  | .unopened cause => some cause.message
  | .unread cause => some cause.message
  | .json fault (some place) => some s!"{fault.message} at line {place.line} column {place.column}"
  | .json fault none => some fault.message
  | .schema _ _ => none

/-- The wording of an error. -/
def message : MapFileError → String
  | .unopened cause => s!"IO error: {cause.message}"
  | .schema field fault => s!"Invalid \"{field.key}\" in opcode map: {fault.message}"
  | other => "JSON error: " ++ other.cause?.getD ""

end MapFileError

/-! ## Fields -/

/-- How opcodes are found; only one way is known. -/
inductive Method where
  | vtable
  | other (name : String)
deriving DecidableEq, Repr

/-- The method with a name. -/
def Method.ofName (name : String) : Method := if name = "vtable" then .vtable else .other name

/-- The known method by its name, any other one quoted. -/
def Method.display : Method → String
  | .vtable => "vtable"
  | .other name => Text.quoted name

/-- What the `vtable` method needs. -/
structure VTableConfig where
  /-- The signature in compact form. -/
  signature : String
  names : SlotNames
  layout : Layout

/-- A map file: its members by ascending key, each key once. -/
structure MapFile where
  members : List (String × Json.Value)

namespace MapFile

/-- The map file that a document holds. -/
def ofValue : Json.Value → Except MapFileError MapFile
  | .object members => .ok ⟨Json.canonicalMembers members⟩
  | other => .error (.schema .root (.notAnObject other))

/-- The map file that bytes hold. -/
def ofBytes (bytes : List UInt8) : Except MapFileError MapFile :=
  let feed := Json.withoutComments bytes
  match Json.document feed with
  | .ok v => ofValue v
  | .error failure =>
    .error (.json failure.fault
      (if failure.placed then some (feed.position failure.unread) else none))

/-- The map file that a text holds. -/
def ofText (text : String) : Except MapFileError MapFile := ofBytes (Text.utf8 text)

/-- The value of a field; a null counts as no value. -/
def field? (file : MapFile) (field : MapField) : Option Json.Value :=
  match file.members.lookup field.key with
  | some .null => none
  | found => found

/-- The value of a field that may be absent, converted. -/
def optional {α : Type} (file : MapFile) (field : MapField)
    (convert : Json.Value → Except Mismatch α) : Except MapFileError (Option α) :=
  match file.field? field with
  | none => .ok none
  | some v => ((convert v).mapError fun cause => .schema field (.mismatch cause)).map some

/-- The value of a field that must be there, converted. -/
def required {α : Type} (file : MapFile) (field : MapField)
    (convert : Json.Value → Except Mismatch α) : Except MapFileError α := do
  match ← file.optional field convert with
  | some x => return x
  | none => throw (.schema field .missing)

/-- The method; no method counts as one without a name. -/
def method (file : MapFile) : Except MapFileError Method :=
  (file.optional .method textOf).map fun name => Method.ofName (name.getD "")

/-! ## The signature -/

/-- A value as a signature: a text, or a list of texts. -/
def signatureOf : Json.Value → Except Mismatch SignatureText
  | .text s => .ok (.text s)
  | .list items =>
    match items.mapM fun v => (textOf v).toOption with
    | some lines => .ok (.lines lines)
    | none => .error .signature
  | _ => .error .signature

/-- The signature as it is written. -/
def signature (file : MapFile) : Except MapFileError SignatureText :=
  file.required .signature signatureOf

/-! ## The names of slots -/

/-- A value as a table of integers by ascending key. -/
def integersOf : Json.Value → Except Mismatch (List (String × Int))
  | .object members =>
    (Json.canonicalMembers members).mapM fun m => (integerOf .i64 m.2).map (m.1, ·)
  | other => .error (.kind (.ofValue other) .table)

/-- Whether a number can be a handler slot. -/
def isSlot (n : Int) : Bool := 0 ≤ n && n < 0x8000_0000

/-- Gives the slots their names one after the other; a slot named again takes the later name. -/
def nameSlots (names : SlotNames) : List (String × Int) → Except MapFileError SlotNames
  | [] => .ok names
  | (name, slot) :: rest =>
    if isSlot slot then nameSlots (names.insert slot name) rest
    else .error (.schema .map (.slotRange slot name))

/-- The slots of the file with their names. The file maps names to slots; the names are taken in
ascending order, so that the greatest name of a slot stays. -/
def names (file : MapFile) : Except MapFileError SlotNames := do
  nameSlots .empty (← file.required .map integersOf)

/-! ## The layout -/

/-- The layout, the legacy one if the file gives none. -/
def layout (file : MapFile) : Except MapFileError Layout :=
  (file.optional .layout Layout.ofValue).map fun l => l.getD .legacy

/-- The fields that the `vtable` method needs. -/
def vtableConfig (file : MapFile) : Except MapFileError VTableConfig := do
  -- The order decides which of two faults is reported.
  let signature ← file.signature
  let names ← file.names
  let layout ← file.layout
  return { signature := signature.compact, names, layout }

end MapFile

end OpcodeAtlas
