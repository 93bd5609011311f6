/-!
# Roms

A rom is the bytes of a program, to be placed where the machine starts.
-/

namespace Chip8

/-- The bytes of a program. -/
structure Rom where
  bytes : List UInt8
  deriving DecidableEq, Repr

namespace Rom

def empty : Rom := ⟨[]⟩

def size (rom : Rom) : Nat := rom.bytes.length

def isEmpty (rom : Rom) : Bool := rom.bytes.isEmpty

end Rom

end Chip8
