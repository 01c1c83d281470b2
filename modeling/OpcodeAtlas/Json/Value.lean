/-!
# OpcodeAtlas.Json.Value — JSON documents

A `Value` is a document as it was written: the members of an object stand in the order of the text, and
a repeated key stands twice. `canonicalMembers` is the view that looks at an object as a table: by
ascending key, the last value of each key.
-/

namespace OpcodeAtlas.Json

/-- A number: a literal without fraction and exponent that fits into 64 bits, or any other. -/
inductive Number where
  | integer (n : Int)
  | real (x : Float)

/-- A JSON document. -/
inductive Value where
  | null
  | boolean (b : Bool)
  | number (n : Number)
  | text (s : String)
  | list (items : List Value)
  | object (members : List (String × Value))

/-- Binds a key in bindings that ascend by key, in the place of an earlier binding. -/
def bindSorted {α : Type} (key : String) (value : α) : List (String × α) → List (String × α)
  | [] => [(key, value)]
  | (k, v) :: rest =>
    if key < k then (key, value) :: (k, v) :: rest
    else if key = k then (key, value) :: rest
    else (k, v) :: bindSorted key value rest

/-- The members of an object by ascending key, the last value of each key. -/
def canonicalMembers {α : Type} (members : List (String × α)) : List (String × α) :=
  members.foldl (fun sorted m => bindSorted m.1 m.2 sorted) []

end OpcodeAtlas.Json
