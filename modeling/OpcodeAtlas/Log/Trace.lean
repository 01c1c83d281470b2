import OpcodeAtlas.Log.Event

/-!
# OpcodeAtlas.Log.Trace — the records of a run

Each stage of extraction has a trace: the events that it gives rise to, in order, whether it succeeds
or fails on the way.

* `CaseBody.trace` — at most one event for a body that tells no slot;
* `Layout.decodeTrace` — the events of decoding;
* `MapFile.namesTrace`, `MapFile.configTrace` — the events of reading the fields of a map file;
* `Extraction.trace` — the events of extraction, with the fault at the end.
-/

namespace OpcodeAtlas

/-- Why the body of a case tells no slot. -/
def CaseBody.trace (image : Image) (target : Int) : List Event :=
  match CaseBody.classify image target with
  | .ok _ => []
  | .error cause => [.slotHidden cause]

/-- What is told of a case that was kept. -/
def Case.trace (image : Image) (c : Case) : List Event :=
  CaseBody.trace image c.target ++ [.caseKept c]

/-! ## Decoding -/

/-- What is told of a table size that is tolerated. -/
def Layout.countTrace (layout : Layout) (policy : MismatchPolicy) (h : SwitchHeader) :
    List Event :=
  match policy, layout.expectedCount with
  | .lenient, some expected =>
    if expected = h.count then [] else [.countUnexpected h.count expected]
  | _, _ => []

/-- What is told of the walk over the table. -/
def Walk.trace (h : SwitchHeader) (image : Image) : List Event :=
  if h.count < 0 then [.countNegative h.count]
  else (Walk.ofHeader h image).cases.flatMap (Case.trace image)

/-- The events of decoding. -/
def Layout.decodeTrace (layout : Layout) (policy : MismatchPolicy) (image : Image) (start : Nat) :
    List Event :=
  match layout.readHeader image start with
  | .error _ => []
  | .ok h =>
    .headerRead h :: layout.countTrace policy h ++
      match layout.checkCount policy h with
      | .error _ => []
      | .ok _ => Walk.trace h image

/-! ## The map file -/

namespace MapFile

/-- What is told while slots are given their names. -/
def nameSlotsTrace (names : SlotNames) : List (String × Int) → List Event
  | [] => []
  | (name, slot) :: rest =>
    if isSlot slot then
      ((names.get? slot).map fun old => Event.slotNamedTwice slot old name).toList ++
        nameSlotsTrace (names.insert slot name) rest
    else []

/-- The events of reading the names of slots. -/
def namesTrace (file : MapFile) : List Event :=
  match file.required .map integersOf with
  | .ok named => nameSlotsTrace .empty named
  | .error _ => []

/-- The events of reading what the `vtable` method needs. -/
def configTrace (file : MapFile) : List Event :=
  match file.signature with
  | .ok _ => file.namesTrace
  | .error _ => []

end MapFile

/-! ## Extraction -/

namespace Extraction

/-- What is told of the container of an image. -/
def containerTrace (image : Image) : List Event :=
  (Container.notes image).map .containerNoted ++
    match Container.recognise image with
    | .ok _ => []
    | .error cause => [.containerRefused cause]

/-- What is told of the cases that were decoded. -/
def casesTrace (x : Extraction) (config : VTableConfig) (cases : List Case) : List Event :=
  let hidden := cases.countP (·.slot.isNone)
  (if 0 < hidden then [.slotsHidden hidden cases.length] else []) ++
    [.opcodesMapped (OpcodeMap.ofCases config.names x.dumpAll cases).size cases.length]

/-- The events of the method that goes by the vtable. -/
def vtableTrace (x : Extraction) (config : VTableConfig) (image : Image) : List Event :=
  match locate config.signature image with
  | .error _ => []
  | .ok (pattern, start) =>
    containerTrace image ++
      [.signatureFound pattern (Container.ofImage image) start,
        .decodingStarts config.names.size x.dumpAll] ++
      config.layout.decodeTrace x.policy image start ++
      match config.layout.decode x.policy image start with
      | .error _ => []
      | .ok cases => x.casesTrace config cases

/-- The events up to the end or the fault. -/
def stagesTrace (x : Extraction) (file : MapFile) (image : Image) : List Event :=
  match file.method with
  | .error _ => []
  | .ok (.other name) => [.methodUnknown (.other name)]
  | .ok .vtable =>
    file.configTrace ++
      match file.vtableConfig with
      | .error _ => []
      | .ok config => x.vtableTrace config image

/-- The events of extraction; a fault is the last of them. -/
def trace (x : Extraction) (file : MapFile) (image : Image) : List Event :=
  x.stagesTrace file image ++
    match x.run file image with
    | .error cause => [.extractionFailed cause]
    | .ok _ => []

end Extraction

end OpcodeAtlas
