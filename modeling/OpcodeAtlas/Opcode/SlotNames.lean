import OpcodeAtlas.Table.Ordered

/-!
# OpcodeAtlas.Opcode.SlotNames — what handlers are called

Handlers are known by their slot in the vtable, reserved entries not counted.
-/

namespace OpcodeAtlas

/-- The names of handler slots. -/
abbrev SlotNames := OrderedTable Int String

end OpcodeAtlas
