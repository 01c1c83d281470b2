import OpcodeAtlas.MapFile.Basic
import OpcodeAtlas.Opcode.Map
import OpcodeAtlas.Signature.Scan

/-!
# OpcodeAtlas.Extraction.Basic — from an image to its opcode map

Extraction finds the dispatch function of an image by its signature, decodes the switch and resolves
the handlers to names.

* `Extraction.run` — the opcode map, or the fault of the first stage that fails;
* `Extraction.runOrEmpty` — the same with an empty map in the place of a fault.
-/

namespace OpcodeAtlas

/-- Why no opcode map could be made. -/
inductive ExtractError where
  | pattern (cause : PatternError)
  /-- The signature does not stand in the image exactly once. -/
  | matchCount (count : Nat)
  | mapFile (cause : MapFileError)
  | decode (cause : DecodeError)

/-- The wording of an extraction fault. -/
def ExtractError.message : ExtractError → String
  | .pattern cause => s!"Invalid signature: {cause.message}"
  | .matchCount count =>
    s!"Invalid matches count {count} from signature scan, expected exactly one"
  | .mapFile cause => cause.message
  | .decode cause => cause.message

/-- How to extract. -/
structure Extraction where
  /-- Whether cases without a name are recorded, too. -/
  dumpAll : Bool
  policy : MismatchPolicy

namespace Extraction

/-- The pattern of a signature and the only offset where it stands. -/
def locate (signature : String) (image : Image) : Except ExtractError (Pattern × Nat) := do
  let pattern ← (Pattern.parse signature).mapError .pattern
  let start ← (pattern.findUnique image).mapError .matchCount
  return (pattern, start)

/-- The opcode map of the method that goes by the vtable. -/
def runVTable (x : Extraction) (config : VTableConfig) (image : Image) :
    Except ExtractError OpcodeMap := do
  let (_, start) ← locate config.signature image
  let cases ← (config.layout.decode x.policy image start).mapError .decode
  return OpcodeMap.ofCases config.names x.dumpAll cases

/-- The opcode map of an image; a method that is not known makes an empty one. -/
def run (x : Extraction) (file : MapFile) (image : Image) : Except ExtractError OpcodeMap := do
  match ← file.method.mapError .mapFile with
  | .vtable => x.runVTable (← file.vtableConfig.mapError .mapFile) image
  | .other _ => return .empty

/-- The opcode map of an image, empty if extraction fails. -/
def runOrEmpty (x : Extraction) (file : MapFile) (image : Image) : OpcodeMap :=
  match x.run file image with
  | .ok opcodes => opcodes
  | .error _ => .empty

end Extraction

end OpcodeAtlas
