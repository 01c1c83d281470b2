/-!
# OpcodeAtlas.Image.LittleEndian — numbers stored low byte first

* `unsigned` is the number that bytes spell, low byte first;
* `signed` reads the same bytes as two's complement: it is the number congruent to `unsigned`
  modulo `256 ^ length` that lies nearest to zero;
* `unsigned_lt` — `n` bytes spell a number below `256 ^ n`.
-/

namespace OpcodeAtlas.LittleEndian

/-- The number that the bytes spell, low byte first. -/
def unsigned : List UInt8 → Nat
  | [] => 0
  | b :: rest => b.toNat + 256 * unsigned rest

/-- The two's complement number that the bytes spell, low byte first. -/
def signed (bytes : List UInt8) : Int :=
  Int.bmod (unsigned bytes) (Nat.pow 256 bytes.length)

theorem unsigned_lt (bytes : List UInt8) : unsigned bytes < Nat.pow 256 bytes.length := by
  induction bytes with
  | nil => simp [unsigned]
  | cons b rest ih =>
    have hb : b.toNat < 256 := b.toNat_lt
    have hpow : Nat.pow 256 (rest.length + 1) = Nat.pow 256 rest.length * 256 := rfl
    rw [unsigned, List.length_cons, hpow]
    omega

end OpcodeAtlas.LittleEndian
