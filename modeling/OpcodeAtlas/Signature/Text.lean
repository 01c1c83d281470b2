import OpcodeAtlas.Text.Blank

/-!
# OpcodeAtlas.Signature.Text — a signature as it is written down

A signature is written as one text or as several lines; its compact form is the text of all lines,
in order, without white space.
-/

namespace OpcodeAtlas

/-- A signature: one text, or lines to be joined. -/
inductive SignatureText where
  | text (text : String)
  | lines (lines : List String)
deriving DecidableEq, Repr

namespace SignatureText

/-- The texts of all lines without white space, one after the other. -/
def joinLines (lines : List String) : String := String.join (lines.map Text.strip)

/-- The compact form of a signature. -/
def compact : SignatureText → String
  | .text line => joinLines [line]
  | .lines several => joinLines several

end SignatureText

end OpcodeAtlas
