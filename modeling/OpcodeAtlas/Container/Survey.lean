import OpcodeAtlas.Container.Fault
import OpcodeAtlas.Text.Outline

/-!
# OpcodeAtlas.Container.Survey — reading a container

A survey of an image ends with what was found or with a fault, and leaves notes on its way, which a
detailed log shows. The notes are kept when the survey fails.
-/

namespace OpcodeAtlas

/-- Something told by a survey. -/
structure Note where
  /-- The part of the reader that tells it. -/
  source : String
  /-- Whether something is wrong. -/
  isWarning : Bool
  text : String
deriving DecidableEq, Repr

/-- A reading of headers that may fail and leaves notes. -/
abbrev Survey (α : Type) := ExceptT ContainerFault (StateM (Array Note)) α

namespace Survey

/-- Leaves a note. -/
def tell (source text : String) : Survey Unit := modify (·.push ⟨source, false, text⟩)

/-- Leaves a note that shows a value on many lines. -/
def tellValue (source label : String) (value : Outline) : Survey Unit :=
  tell source (label ++ value.indented)

/-- Leaves a note that something is wrong. -/
def warn (source text : String) : Survey Unit := modify (·.push ⟨source, true, text⟩)

/-- What a survey finds. -/
def found {α : Type} (survey : Survey α) : Except ContainerFault α := (ExceptT.run survey #[]).1

/-- The notes that a survey leaves. -/
def notes {α : Type} (survey : Survey α) : List Note := (ExceptT.run survey #[]).2.toList

end Survey

end OpcodeAtlas
