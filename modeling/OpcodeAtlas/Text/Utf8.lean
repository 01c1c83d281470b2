/-!
# OpcodeAtlas.Text.Utf8 — text as bytes

The UTF-8 encoding of text, the strict reading of bytes as text, and the lenient reading that puts
U+FFFD in the place of every maximal malformed sequence.

* `ofUtf8?_eq_some_iff` — strict reading accepts exactly the encodings.
-/

namespace OpcodeAtlas.Text

/-- The UTF-8 encoding of a text. -/
def utf8 (s : String) : List UInt8 := s.toByteArray.data.toList

/-- The text that the bytes encode, if they are well-formed UTF-8. -/
def ofUtf8? (bytes : List UInt8) : Option String := String.fromUTF8? ⟨bytes.toArray⟩

theorem ofUtf8?_utf8 (s : String) : ofUtf8? (utf8 s) = some s := by
  have h : s.toByteArray.IsValidUTF8 := s.isValidUTF8
  simp [ofUtf8?, utf8, String.fromUTF8?, h, String.fromUTF8]

theorem utf8_of_ofUtf8? {bytes : List UInt8} {s : String} (h : ofUtf8? bytes = some s) :
    utf8 s = bytes := by
  unfold ofUtf8? String.fromUTF8? at h
  split at h
  · cases h
    rfl
  · contradiction

theorem ofUtf8?_eq_some_iff {bytes : List UInt8} {s : String} :
    ofUtf8? bytes = some s ↔ bytes = utf8 s :=
  ⟨fun h => (utf8_of_ofUtf8? h).symm, fun h => h ▸ ofUtf8?_utf8 s⟩

/-! ## Lenient reading -/

/-- How a lead byte goes on: the number of continuation bytes and the range of the first. -/
def continuation? (lead : UInt8) : Option (Nat × UInt8 × UInt8) :=
  if lead < 0x80 then some (0, 0x80, 0xBF)
  else if 0xC2 ≤ lead ∧ lead ≤ 0xDF then some (1, 0x80, 0xBF)
  else if lead = 0xE0 then some (2, 0xA0, 0xBF)
  else if lead = 0xED then some (2, 0x80, 0x9F)
  else if 0xE1 ≤ lead ∧ lead ≤ 0xEF then some (2, 0x80, 0xBF)
  else if lead = 0xF0 then some (3, 0x90, 0xBF)
  else if 0xF1 ≤ lead ∧ lead ≤ 0xF3 then some (3, 0x80, 0xBF)
  else if lead = 0xF4 then some (3, 0x80, 0x8F)
  else none

/-- The continuation bytes that stand at the front of the rest, at most `count` of them. -/
def takeContinuation : (count : Nat) → (lo hi : UInt8) → List UInt8 → List UInt8
  | 0, _, _, _ => []
  | _, _, _, [] => []
  | count + 1, lo, hi, b :: rest =>
    if lo ≤ b ∧ b ≤ hi then b :: takeContinuation count 0x80 0xBF rest else []

/-- The character that a complete sequence encodes. -/
def scalar (lead : UInt8) (tail : List UInt8) : Char :=
  let head := match tail.length with
    | 0 => lead.toNat
    | 1 => lead.toNat % 0x20
    | 2 => lead.toNat % 0x10
    | _ => lead.toNat % 0x08
  Char.ofNat (tail.foldl (fun code b => code * 64 + b.toNat % 64) head)

/-- Reads bytes as characters; a sequence that breaks off or cannot start gives one U+FFFD. -/
def lenientChars : List UInt8 → List Char
  | [] => []
  | lead :: rest =>
    match continuation? lead with
    | none => '\uFFFD' :: lenientChars rest
    | some (count, lo, hi) =>
      let tail := takeContinuation count lo hi rest
      (if tail.length = count then scalar lead tail else '\uFFFD') ::
        lenientChars (rest.drop tail.length)
termination_by bytes => bytes.length

/-- The number of bytes in front of the first sequence that breaks off or cannot start. -/
def wellFormedLength : List UInt8 → Nat
  | [] => 0
  | lead :: rest =>
    match continuation? lead with
    | none => 0
    | some (count, lo, hi) =>
      let tail := takeContinuation count lo hi rest
      if tail.length = count then 1 + count + wellFormedLength (rest.drop count) else 0
termination_by bytes => bytes.length
decreasing_by
  rw [List.length_drop, List.length_cons]
  exact Nat.lt_succ_of_le (Nat.sub_le _ _)

/-- The text of the bytes, with U+FFFD for every maximal malformed sequence. -/
def lenientText (bytes : List UInt8) : String := String.ofList (lenientChars bytes)

end OpcodeAtlas.Text
