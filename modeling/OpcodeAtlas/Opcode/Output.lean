import OpcodeAtlas.Json.Writer
import OpcodeAtlas.Opcode.Map

/-!
# OpcodeAtlas.Opcode.Output — opcode maps as JSON

An opcode map is written as an object with one member for each opcode: the key is the opcode in
decimal, the value its name.

* `OpcodeMap.ordered` — by ascending opcode, or in the order of recording;
* `OpcodeMap.toJson` — the text in one of two styles;
* `OpcodeMap.fileText` — the text of a file.
-/

namespace OpcodeAtlas.OpcodeMap

/-- The bindings by ascending opcode, or in the order of recording. -/
def ordered (m : OpcodeMap) (sort : Bool) : List (Int × String) :=
  if sort then m.sorted else m.toList

/-- The map as an object. -/
def toJson (m : OpcodeMap) (style : Json.Style) (sort : Bool) : String :=
  Json.objectOfTexts style ((m.ordered sort).map fun b => (toString b.1, b.2))

/-- The content of a file that holds the map: a line for each opcode and a newline at the end. -/
def fileText (m : OpcodeMap) (sort : Bool) : String := m.toJson .pretty sort ++ "\n"

end OpcodeAtlas.OpcodeMap
