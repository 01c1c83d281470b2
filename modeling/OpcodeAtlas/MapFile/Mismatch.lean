import OpcodeAtlas.Decimal.Shortest
import OpcodeAtlas.Dispatch.Layout
import OpcodeAtlas.Json.Value
import OpcodeAtlas.Text.Quoted

/-!
# OpcodeAtlas.MapFile.Mismatch — values of another kind than asked for

A field of a map file asks for a value of some kind. A `Mismatch` says what was found instead and what
was asked for, or what is wrong with the members of a layout.

* `IntegerKind.fits` — the range of a kind of integer;
* `integerOf`, `textOf` — a value as an integer or a text.
-/

namespace OpcodeAtlas

/-- The kinds of integers that are asked for. -/
inductive IntegerKind where
  | i32 | i64 | offset
deriving DecidableEq, Repr

/-- The least integer of a kind. -/
def IntegerKind.least : IntegerKind → Int
  | .i32 => -0x8000_0000
  | .i64 => -0x8000_0000_0000_0000
  | .offset => 0

/-- One more than the greatest integer of a kind. -/
def IntegerKind.limit : IntegerKind → Int
  | .i32 => 0x8000_0000
  | .i64 => 0x8000_0000_0000_0000
  | .offset => 0x1_0000_0000_0000_0000

/-- Whether an integer is of a kind. -/
def IntegerKind.fits (kind : IntegerKind) (n : Int) : Bool := kind.least ≤ n && n < kind.limit

/-- What is asked for. -/
inductive Wanted where
  | text | table | layout
  | integer (kind : IntegerKind)
deriving DecidableEq, Repr

/-- The wording of what is asked for. -/
def Wanted.message : Wanted → String
  | .text => "a string"
  | .table => "a map"
  | .layout => "struct StructuralLayout"
  | .integer .i32 => "i32"
  | .integer .i64 => "i64"
  | .integer .offset => "usize"

/-- What is found. -/
inductive Found where
  | null | list | object
  | boolean (b : Bool)
  | number (n : Json.Number)
  | text (s : String)

/-- What a value is found to be. -/
def Found.ofValue : Json.Value → Found
  | .null => .null
  | .boolean b => .boolean b
  | .number n => .number n
  | .text s => .text s
  | .list _ => .list
  | .object _ => .object

/-- The wording of what is found. -/
def Found.message : Found → String
  | .null => "null"
  | .list => "sequence"
  | .object => "map"
  | .boolean b => s!"boolean `{b}`"
  | .number (.integer n) => s!"integer `{n}`"
  | .number (.real x) => s!"floating point `{Decimal.render x}`"
  | .text s => s!"string {Text.quoted s}"

/-- Why a value is not what is asked for. -/
inductive Mismatch where
  /-- A value of another kind. -/
  | kind (found : Found) (wanted : Wanted)
  /-- An integer out of range. -/
  | range (found : Int) (wanted : IntegerKind)
  /-- Neither a text nor a list of texts. -/
  | signature
  | missingMember (field : Layout.Field)
  | repeatedMember (field : Layout.Field)
  | unknownMember (key : String)
  /-- A list with fewer items than a layout has offsets. -/
  | tooFew (items : Nat)
  /-- A list with more items than a layout has members. -/
  | tooMany (items : Nat)

/-- The keys of a layout as a message lists them. -/
def Layout.Field.listing : String :=
  ", ".intercalate (Layout.Field.all.map fun field => s!"`{field.key}`")

/-- The wording of a mismatch. -/
def Mismatch.message : Mismatch → String
  | .kind found wanted => s!"invalid type: {found.message}, expected {wanted.message}"
  | .range found wanted =>
    s!"invalid value: integer `{found}`, expected {(Wanted.integer wanted).message}"
  | .signature => "data did not match any variant of untagged enum SignatureText"
  | .missingMember field => s!"missing field `{field.key}`"
  | .repeatedMember field => s!"duplicate field `{field.key}`"
  | .unknownMember key => s!"unknown field `{key}`, expected one of {Layout.Field.listing}"
  | .tooFew items => s!"invalid length {items}, expected struct StructuralLayout with 6 elements"
  | .tooMany items => s!"invalid length {items}, expected fewer elements in array"

/-- A number as an integer of the kind asked for. -/
def integerOfNumber (kind : IntegerKind) : Json.Number → Except Mismatch Int
  | .integer n => if kind.fits n then .ok n else .error (.range n kind)
  | .real x => .error (.kind (.number (.real x)) (.integer kind))

/-- A value as an integer of the kind asked for. -/
def integerOf (kind : IntegerKind) : Json.Value → Except Mismatch Int
  | .number n => integerOfNumber kind n
  | other => .error (.kind (.ofValue other) (.integer kind))

/-- A value as a text. -/
def textOf : Json.Value → Except Mismatch String
  | .text s => .ok s
  | other => .error (.kind (.ofValue other) .text)

end OpcodeAtlas
