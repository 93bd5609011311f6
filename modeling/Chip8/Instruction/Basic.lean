import Chip8.Opcode

/-!
# Instructions

The thirty-four instructions of the machine with their operands. Operands have the width that an
opcode gives them, so every value of the type is an instruction that can be written in memory.
-/

namespace Chip8

/-- The number of one of the sixteen general registers `V0` to `VF`. -/
abbrev Register := Fin 16

/-- The register that receives carries, borrows and collisions. -/
def Register.flag : Register := ⟨15, by decide⟩

/-- The register with the number zero, which offsets some jumps. -/
def Register.zero : Register := Digit.zero

/-- An instruction with its operands. The comment on each ends with its opcode. -/
inductive Instruction where
  /-- Turn every pixel off (`00E0`). -/
  | clearScreen
  /-- Go on behind the call that is open (`00EE`). -/
  | returnFromSubroutine
  /-- Go on at an address (`1nnn`). -/
  | jump (nnn : Address)
  /-- Call the subroutine at an address (`2nnn`). -/
  | call (nnn : Address)
  /-- Skip the next opcode if `Vx` is the byte (`3xkk`). -/
  | skipIfEqualByte (x : Register) (kk : UInt8)
  /-- Skip the next opcode if `Vx` is not the byte (`4xkk`). -/
  | skipIfNotEqualByte (x : Register) (kk : UInt8)
  /-- Skip the next opcode if `Vx` and `Vy` are equal (`5xy0`). -/
  | skipIfEqual (x y : Register)
  /-- Put a byte into `Vx` (`6xkk`). -/
  | loadByte (x : Register) (kk : UInt8)
  /-- Add a byte to `Vx`, without a carry (`7xkk`). -/
  | addByte (x : Register) (kk : UInt8)
  /-- Copy `Vy` into `Vx` (`8xy0`). -/
  | load (x y : Register)
  /-- Bitwise or into `Vx` (`8xy1`). -/
  | or (x y : Register)
  /-- Bitwise and into `Vx` (`8xy2`). -/
  | and (x y : Register)
  /-- Bitwise exclusive or into `Vx` (`8xy3`). -/
  | xor (x y : Register)
  /-- Add `Vy` to `Vx`; the flag is the carry (`8xy4`). -/
  | add (x y : Register)
  /-- Subtract `Vy` from `Vx`; the flag says that nothing was borrowed (`8xy5`). -/
  | sub (x y : Register)
  /-- Halve `Vx`; the flag is the bit that falls out and `y` is ignored (`8xy6`). -/
  | shiftRight (x : Register)
  /-- Put `Vy` minus `Vx` into `Vx`; the flag says that nothing was borrowed (`8xy7`). -/
  | subReversed (x y : Register)
  /-- Double `Vx`; the flag is the bit that falls out and `y` is ignored (`8xyE`). -/
  | shiftLeft (x : Register)
  /-- Skip the next opcode if `Vx` and `Vy` differ (`9xy0`). -/
  | skipIfNotEqual (x y : Register)
  /-- Put an address into the index register (`Annn`). -/
  | setIndex (nnn : Address)
  /-- Go on at an address plus `V0` (`Bnnn`). -/
  | jumpPlusV0 (nnn : Address)
  /-- Put a random byte, masked by a byte, into `Vx` (`Cxkk`). -/
  | random (x : Register) (kk : UInt8)
  /-- Draw the sprite of `n` bytes at the index register; the flag is the collision (`Dxyn`). -/
  | draw (x y : Register) (n : Digit)
  /-- Skip the next opcode if the key with the number in `Vx` is pressed (`Ex9E`). -/
  | skipIfPressed (x : Register)
  /-- Skip the next opcode if the key with the number in `Vx` is not pressed (`ExA1`). -/
  | skipIfNotPressed (x : Register)
  /-- Copy the delay timer into `Vx` (`Fx07`). -/
  | loadDelayTimer (x : Register)
  /-- Wait until a key is pressed and put its number into `Vx` (`Fx0A`). -/
  | waitForKey (x : Register)
  /-- Start the delay timer at `Vx` (`Fx15`). -/
  | setDelayTimer (x : Register)
  /-- Start the sound timer at `Vx` (`Fx18`). -/
  | setSoundTimer (x : Register)
  /-- Add `Vx` to the index register (`Fx1E`). -/
  | addToIndex (x : Register)
  /-- Point the index register at the glyph with the number in `Vx` (`Fx29`). -/
  | setIndexToGlyph (x : Register)
  /-- Store the three decimal digits of `Vx` at the index register (`Fx33`). -/
  | storeBcd (x : Register)
  /-- Store `V0` to `Vx` at the index register (`Fx55`). -/
  | storeRegisters (x : Register)
  /-- Fetch `V0` to `Vx` from the index register on (`Fx65`). -/
  | loadRegisters (x : Register)
  deriving DecidableEq, Repr

end Chip8
