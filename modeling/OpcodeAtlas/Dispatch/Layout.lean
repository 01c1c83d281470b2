/-!
# OpcodeAtlas.Dispatch.Layout — where the metadata of a switch stands

The function that dispatches on the opcode holds a switch over a jump table. A `Layout` tells, relative
to the place where the signature matched, where the numbers stand that describe the table.

* `Layout.Field` — the members of a layout in the order of its declaration, with their keys;
* `Layout.legacy` — the layout that holds when none is given;
* `Layout.members` — a layout as keys and numbers, an absent expected count left out.
-/

namespace OpcodeAtlas

/-- Distances from the signature match, and the table size to expect. -/
structure Layout where
  /-- One signed byte: the bias that turns a table index into an opcode. -/
  bias : Nat
  /-- Four bytes: the highest table index. -/
  count : Nat
  /-- A reference to the default case. -/
  defaultCase : Nat
  /-- A reference to the image base. -/
  imageBase : Nat
  /-- Four bytes: where the jump table starts, relative to the image base. -/
  tableData : Nat
  /-- The highest table index that the image should have. -/
  expectedCount : Option Int
deriving DecidableEq, Repr

namespace Layout

/-- The layout that holds when none is given. -/
def legacy : Layout := ⟨15, 17, 23, 30, 40, none⟩

/-- The members of a layout. -/
inductive Field where
  | bias | count | defaultCase | imageBase | tableData | expectedCount
deriving DecidableEq, Repr

/-- All members in the order of their declaration. -/
def Field.all : List Field := [.bias, .count, .defaultCase, .imageBase, .tableData, .expectedCount]

/-- The key of a member in JSON. -/
def Field.key : Field → String
  | .bias => "switchTableOffsetOffset"
  | .count => "switchTableCountOffset"
  | .defaultCase => "defaultCaseAddrOffset"
  | .imageBase => "imageBaseOffsetOffset"
  | .tableData => "switchTableDataOffsetOffset"
  | .expectedCount => "expectedCount"

/-- The member with the given key. -/
def Field.ofKey? (key : String) : Option Field := Field.all.find? (·.key == key)

/-- The keys and numbers of a layout; there is no member for an absent count. -/
def members (l : Layout) : List (String × Int) :=
  let offsets : List (String × Int) :=
    [(Field.bias.key, l.bias), (Field.count.key, l.count), (Field.defaultCase.key, l.defaultCase),
      (Field.imageBase.key, l.imageBase), (Field.tableData.key, l.tableData)]
  match l.expectedCount with
  | some count => offsets ++ [(Field.expectedCount.key, count)]
  | none => offsets

/-- Whether this is the layout that holds when none is given. -/
def isLegacy (l : Layout) : Bool := l == legacy

end Layout

end OpcodeAtlas
