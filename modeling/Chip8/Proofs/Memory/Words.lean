import Chip8.Memory

/-!
# Words in memory

An opcode is a word of two bytes. `WordAt` says which word lies at an address, in terms of the two
bytes alone, and `opcodeAt_eq_ok_iff_wordAt` that this is the word which is fetched there.
-/

namespace Chip8.Memory

/-- The word that the two bytes from an address on make, the high byte first. -/
def WordAt (memory : Memory) (address : Nat) (word : Opcode) : Prop :=
  ∃ high low, memory.byte? address = some high ∧ memory.byte? (address + 1) = some low ∧
    word.toNat = high.toNat * 0x100 + low.toNat

theorem opcodeAt_eq_ok_iff_wordAt {memory : Memory} {address : UInt16} {word : Opcode} :
    memory.opcodeAt address = .ok word ↔ memory.WordAt address.toNat word := by
  rw [opcodeAt_eq_ok_iff]
  constructor
  · intro found
    rcases found with ⟨high, low, highAt, lowAt, rfl⟩
    exact ⟨high, low, highAt, lowAt, Opcode.toNat_ofBytes high low⟩
  · intro there
    rcases there with ⟨high, low, highAt, lowAt, value⟩
    refine ⟨high, low, highAt, lowAt, ?_⟩
    apply UInt16.toNat_inj.mp
    rw [value, Opcode.toNat_ofBytes]

/-- Two bytes that are written where they fit are fetched as the opcode that they make. -/
theorem opcodeAt_write (memory : Memory) (high low : UInt8) {address : UInt16}
    (inside : address.toNat + 2 ≤ size) :
    (memory.write address.toNat [high, low]).opcodeAt address = .ok (.ofBytes high low) := by
  have first : address.toNat < size := by omega
  have second : address.toNat + 1 < size := by omega
  apply opcodeAt_eq_ok_iff.mpr
  refine ⟨high, low, ?_, ?_, rfl⟩
  · simp [byte?_write, first]
  · simp [byte?_write, second]

theorem WordAt.eq {memory : Memory} {address : Nat} {word other : Opcode}
    (there : memory.WordAt address word) (also : memory.WordAt address other) : word = other := by
  rcases there with ⟨high, low, highAt, lowAt, value⟩
  rcases also with ⟨_, _, sameHigh, sameLow, same⟩
  cases highAt.symm.trans sameHigh
  cases lowAt.symm.trans sameLow
  exact UInt16.toNat_inj.mp (value.trans same.symm)

theorem WordAt.of_bytes {before after : Memory} {address : Nat} {word : Opcode}
    (there : before.WordAt address word)
    (kept : ∀ place, place = address ∨ place = address + 1 →
      after.byte? place = before.byte? place) : after.WordAt address word := by
  rcases there with ⟨high, low, highAt, lowAt, value⟩
  refine ⟨high, low, ?_, ?_, value⟩
  · rw [kept _ (.inl rfl)]
    exact highAt
  · rw [kept _ (.inr rfl)]
    exact lowAt

end Chip8.Memory
