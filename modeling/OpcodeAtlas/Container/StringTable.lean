import OpcodeAtlas.Container.Field

/-!
# OpcodeAtlas.Container.StringTable — tables of names

A table of names is a window of bytes in which a NUL ends each name. An offset may point into the middle
of a name and then means the rest of it.
-/

namespace OpcodeAtlas.Container

/-- The names of a table, each with its offset, in ascending order. -/
structure StringTable where
  entries : List (Nat × String)
deriving DecidableEq, Repr

namespace StringTable

/-- The table without names. -/
def empty : StringTable := ⟨[]⟩

/-- The names that NULs end in the bytes from `offset` on. -/
def split (offset : Nat) : List UInt8 → Except ContainerFault (List (Nat × String))
  | [] => .ok []
  | b :: rest =>
    let bytes := b :: rest
    let name := bytes.takeWhile (· ≠ 0)
    match Text.ofUtf8? name with
    | none => .error (.notText bytes.length)
    | some text => do
      return (offset, text) :: (← split (offset + name.length + 1) (rest.drop name.length))
termination_by bytes => bytes.length
decreasing_by simp only [List.length_drop, List.length_cons]; omega

/-- The table in a window of an image. -/
def read (image : Image) (offset size : Nat) : Except ContainerFault StringTable := do
  if image.size < offset + size then throw (.textsPastEnd offset size image.size)
  return ⟨← split 0 (image.slice offset (offset + size))⟩

/-- The name at an offset, if the offset lies in a name or at its end. -/
def at? (table : StringTable) (offset : Nat) : Option String :=
  match (table.entries.takeWhile (·.1 ≤ offset)).getLast? with
  | none => none
  | some (start, text) =>
    let bytes := Text.utf8 text
    if offset - start ≤ bytes.length then Text.ofUtf8? (bytes.drop (offset - start)) else none

end StringTable

end OpcodeAtlas.Container
