import Chip8.Font
import Chip8.Memory

/-!
# Configuration

Where a machine keeps its program and its font, how deep calls may nest, and how it settles what
programs disagree about. A configuration is checked before a machine is built from it.
-/

namespace Chip8

/-- The choices that fix a machine. -/
structure Config where
  /-- Where roms are loaded and execution starts. -/
  programStart : UInt16 := 0x200
  /-- Where the font lies. -/
  fontStart : UInt16 := 0x050
  /-- How many calls may be open at once. -/
  stackDepth : Nat := 16
  /-- The seed of the random bytes; without one the host supplies them. -/
  seed : Option UInt64 := none
  /-- Whether adding to the index register flags a sum that runs past memory. -/
  flagsIndexOverflow : Bool := false
  deriving DecidableEq, Repr

namespace Config

/-- The usual layout, without a seed. -/
def standard : Config := {}

/-- Find the fault of a configuration: the font has to end inside memory, and an opcode has to fit
at the start of the program. The font is looked at first. -/
def check (config : Config) : Except Fault Unit :=
  if ¬ Memory.Fits config.fontStart Font.bytes.length then
    .error (.fontOutsideMemory config.fontStart)
  else if ¬ Memory.Fits config.programStart 2 then
    .error (.programOutsideMemory config.programStart)
  else .ok ()

/-- The number of bytes that a rom may have. -/
def room (config : Config) : Nat :=
  Memory.size - config.programStart.toNat

/-- A configuration is in order when its font and one opcode at its start fit into memory. -/
theorem check_eq_ok_iff {config : Config} :
    config.check = .ok () ↔
      Memory.Fits config.fontStart Font.bytes.length ∧ Memory.Fits config.programStart 2 := by
  simp only [check]
  split
  next outside => simp [outside]
  next font =>
    split
    next outside => simp [outside]
    next program => simp [Decidable.of_not_not font, Decidable.of_not_not program]

end Config

end Chip8
