import OpcodeAtlas.Image.Basic
import OpcodeAtlas.Text.Utf8

/-!
# OpcodeAtlas.Signature.Pattern — byte patterns with gaps

A `Pattern` is a sequence of one or more places, each a byte that must stand there or a gap where any
byte may stand. Its text has two characters for each place: two hexadecimal digits, or `??`.

* `Pattern.parse` reads text without white space; the faults are listed in `PatternError`;
* `Pattern.render` writes a pattern, with a blank between its places;
* `Pattern.matchesAt` says whether a pattern stands at an offset of an image.
-/

namespace OpcodeAtlas

/-- Why a text or a sequence is no pattern. -/
inductive PatternError where
  | empty
  /-- The text has an odd number of bytes. -/
  | oddLength (bytes : Nat)
  /-- The pair of bytes with this index spells no place. -/
  | invalidToken (index : Nat) (token : String)
deriving DecidableEq, Repr

/-- The wording of a pattern fault. -/
def PatternError.message : PatternError → String
  | .empty => "Pattern is empty"
  | .oddLength bytes => s!"Pattern has odd length {bytes}; every byte needs two characters"
  | .invalidToken index token => s!"Invalid pattern token '{token}' at byte {index}"

/-- One or more places, `none` where any byte may stand. -/
structure Pattern where
  places : List (Option UInt8)
  places_ne_nil : places ≠ []
deriving DecidableEq

namespace Pattern

/-- The pattern with the given places. -/
def ofPlaces (places : List (Option UInt8)) : Except PatternError Pattern :=
  if h : places = [] then .error .empty else .ok ⟨places, h⟩

/-- The number of places. -/
def length (p : Pattern) : Nat := p.places.length

/-- Whether the pattern has no place; none is so. -/
def isEmpty (p : Pattern) : Bool := p.places.isEmpty

/-- The number of places that ask for one byte. -/
def fixedCount (p : Pattern) : Nat := p.places.countP Option.isSome

/-- The number of gaps. -/
def gapCount (p : Pattern) : Nat := p.length - p.fixedCount

/-- The first place that asks for one byte, with that byte. -/
def firstFixed (p : Pattern) : Option (Nat × UInt8) :=
  p.places.zipIdx.findSome? fun (place, index) => place.map (index, ·)

/-! ## Reading -/

/-- The place that a pair of bytes spells. -/
def placeOfPair? (high low : UInt8) : Option (Option UInt8) :=
  if high = 0x3F ∧ low = 0x3F then some none
  else do
    let h ← Text.hexValue? high
    let l ← Text.hexValue? low
    return some (UInt8.ofNat (16 * h + l))

/-- The places that consecutive pairs of bytes spell, `index` being the first pair's. -/
def placesOfPairs (index : Nat) : List UInt8 → Except PatternError (List (Option UInt8))
  | high :: low :: rest =>
    match placeOfPair? high low with
    | none => .error (.invalidToken index (Text.lenientText [high, low]))
    | some place => (placesOfPairs (index + 1) rest).map (place :: ·)
  | _ => .ok []

/-- Reads a pattern from text without white space. -/
def parse (text : String) : Except PatternError Pattern :=
  let bytes := Text.utf8 text
  if bytes = [] then .error .empty
  else if bytes.length % 2 ≠ 0 then .error (.oddLength bytes.length)
  else (placesOfPairs 0 bytes).bind ofPlaces

/-! ## Writing -/

/-- Two upper-case digits, or `??` for a gap. -/
def placeText : Option UInt8 → String
  | some b => Text.padLeft 2 '0' (Text.upperHex b.toNat)
  | none => "??"

/-- The places with a blank between neighbours. -/
def render (p : Pattern) : String := " ".intercalate (p.places.map placeText)

/-! ## Matching -/

/-- Whether each place agrees with the byte at its distance from `offset`. -/
def placesMatchAt (image : Image) : (places : List (Option UInt8)) → (offset : Nat) → Bool
  | [], _ => true
  | none :: rest, offset => offset < image.size && placesMatchAt image rest (offset + 1)
  | some b :: rest, offset => image.byte? offset == some b && placesMatchAt image rest (offset + 1)

/-- Whether the pattern stands at `offset`, all of it inside the image. -/
def matchesAt (p : Pattern) (image : Image) (offset : Nat) : Bool :=
  placesMatchAt image p.places offset

end Pattern

end OpcodeAtlas
