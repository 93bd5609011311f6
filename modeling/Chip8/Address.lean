/-!
# Addresses

Memory has 4096 cells, so twelve bits name each of them. The address part of an opcode is exactly
such a number and always names a cell. The program counter and the index register are wider: they
are sixteen-bit words that may run past the end of memory.
-/

namespace Chip8

/-- The number of cells of memory. -/
abbrev Memory.size : Nat := 4096

/-- A twelve-bit address; every one names a cell of memory. -/
abbrev Address := Fin Memory.size

/-- The address as a sixteen-bit word, the width of the program counter and the index register. -/
def Address.toWord (address : Address) : UInt16 :=
  UInt16.ofNat address.val

@[simp] theorem Address.toNat_toWord (address : Address) : address.toWord.toNat = address.val := by
  have bound := address.isLt
  simp only [Memory.size] at bound
  simp only [Address.toWord, UInt16.toNat_ofNat']
  omega

end Chip8
