import OpcodeAtlas.Image.Basic

/-!
# OpcodeAtlas.Image.Displacement — references relative to their own field

A reference in code is stored as the distance from the byte after a four-byte field to the target.
`resolve` gives the target, `span` its distance from the field itself.
-/

namespace OpcodeAtlas.Image

/-- The width of a stored distance. -/
def displacementWidth : Int := 4

/-- The distance stored at `offset`. -/
def displacement (image : Image) (offset : Nat) : Except ReadError Int :=
  image.readI32 offset

/-- How far the target lies from the field at `offset`. -/
def span (image : Image) (offset : Nat) : Except ReadError Int :=
  (image.displacement offset).map (displacementWidth + ·)

/-- The position that the field at `offset` refers to. -/
def resolve (image : Image) (offset : Nat) : Except ReadError Int :=
  (image.span offset).map ((offset : Int) + ·)

end OpcodeAtlas.Image
