import OpcodeAtlas.Container.Recognise
import OpcodeAtlas.Extraction.Basic

/-!
# OpcodeAtlas.Log.Event — what is worth telling

An `Event` is one record of the log. Its level, its source and its wording follow from what happened;
nothing depends on the log.
-/

namespace OpcodeAtlas

/-- How much a record matters, the most severe level first. -/
inductive LogLevel where
  | error | warn | info | debug
deriving DecidableEq, Repr

namespace LogLevel

/-- The name in upper case. -/
def name : LogLevel → String
  | .error => "ERROR"
  | .warn => "WARN"
  | .info => "INFO"
  | .debug => "DEBUG"

/-- The place among the levels, the most severe first. -/
def rank : LogLevel → Nat
  | .error => 0
  | .warn => 1
  | .info => 2
  | .debug => 3

/-- Whether a log that goes down to `least` shows this level. -/
def shownAt (level least : LogLevel) : Bool := level.rank ≤ least.rank

end LogLevel

/-- What happened. -/
inductive Event where
  /-- The executable was loaded. -/
  | imageLoaded (bytes : Nat) (path : String)
  /-- Two names were given to one slot. -/
  | slotNamedTwice (slot : Int) (replaced kept : String)
  | methodUnknown (method : Method)
  /-- Something was told while the container was read. -/
  | containerNoted (note : Note)
  | containerRefused (cause : ContainerFault)
  | signatureFound (pattern : Pattern) (container : Container) (start : Nat)
  | decodingStarts (names : Nat) (dumpAll : Bool)
  | headerRead (header : SwitchHeader)
  | countUnexpected (found expected : Int)
  | countNegative (count : Int)
  | slotHidden (cause : CaseAnomaly)
  | caseKept (case : Case)
  | slotsHidden (hidden total : Nat)
  | opcodesMapped (opcodes cases : Nat)
  | extractionFailed (cause : ExtractError)

namespace Event

/-- The level of a record. -/
def level : Event → LogLevel
  | .slotNamedTwice .. | .countUnexpected .. | .countNegative _ => .warn
  | .containerRefused _ | .headerRead _ | .slotHidden _ | .caseKept _ => .debug
  | .containerNoted note => if note.isWarning then .warn else .debug
  | .extractionFailed _ => .error
  | _ => .info

/-- The part of the program that a record comes from. -/
def source : Event → String
  | .imageLoaded .. => "opcode_extractor::ui::cli::handler"
  | .slotNamedTwice .. => "opcode_extractor::config"
  | .containerNoted note => note.source
  | .containerRefused _ => "opcode_extractor::memory::image"
  | .headerRead _ | .countUnexpected .. | .countNegative _ | .slotHidden _ | .caseKept _ =>
    "opcode_extractor::dispatch::decoder"
  | _ => "opcode_extractor::extract"

/-- A slot, or the word for none. -/
def slotWords : Option Int → String
  | some slot => s!"Some({slot})"
  | none => "None"

/-- A header with its numbers by name. -/
def headerWords (h : SwitchHeader) : String :=
  s!"SwitchHeader \x7b bias: {h.bias}, count: {h.count}, default_case: {h.defaultCase}, " ++
    s!"image_base: {h.imageBase}, table_data: {h.tableData} \x7d"

/-- The wording of a record. -/
def message : Event → String
  | .imageLoaded bytes path => s!"Mapped {bytes} bytes from {path}"
  | .slotNamedTwice slot replaced kept =>
    s!"Slot {slot} is mapped to both {replaced} and {kept}; keeping {kept}"
  | .methodUnknown method => s!"Method {method.display} has no extractor, nothing to do"
  | .containerNoted note => note.text
  | .containerRefused cause =>
    s!"Image container not recognised, treating as raw bytes: {cause.message}"
  | .signatureFound pattern container start =>
    s!"Signature ({pattern.fixedCount} fixed, {pattern.gapCount} wildcard bytes) " ++
      s!"matched at {container.describe start}"
  | .decodingStarts names dumpAll =>
    s!"Scanning for opcode maps for {names} opcodes, dumping all: {dumpAll}"
  | .headerRead h => s!"Switch header: {headerWords h}"
  | .countUnexpected found expected =>
    s!"Switch table count {found} does not match expected {expected}; " ++
      "the signature or layout may have drifted, continuing"
  | .countNegative count => s!"Negative switch table count {count}, no cases decoded"
  | .slotHidden cause => cause.message
  | .caseKept c =>
    s!"Case {c.index} -> opcode 0x{Text.lowerHex (Text.word64 c.opcode)} " ++
      s!"at 0x{Text.lowerHex (Text.word64 c.target)}, slot {slotWords c.slot}"
  | .slotsHidden hidden total => s!"{hidden} of {total} cases have an unrecognised handler shape"
  | .opcodesMapped opcodes cases => s!"Mapped {opcodes} opcodes from {cases} cases"
  | .extractionFailed cause => cause.message

end Event

end OpcodeAtlas
