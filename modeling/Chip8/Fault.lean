import Chip8.Address
import Chip8.Text.Hex

/-!
# Faults

The reasons for which the machine refuses a request, and their wording. A fault is a value: it
carries what was asked for, and the message is read off it in one place.
-/

namespace Chip8

/-- Why a request was refused. -/
inductive Fault where
  /-- The opcode matches no instruction. -/
  | unknownOpcode (opcode : UInt16)
  /-- A return was executed with no call to return from. -/
  | stackUnderflow
  /-- A call was executed at the greatest depth that the configuration allows. -/
  | stackOverflow (depth : Nat)
  /-- A byte outside memory was asked for. -/
  | outOfBounds (address : Nat)
  /-- A key outside the sixteen of the keypad was named. -/
  | invalidKey (key : UInt8)
  /-- A rom has more bytes than there is room for. -/
  | romTooLarge (size room : Nat)
  /-- A configuration places the font so that it does not end inside memory. -/
  | fontOutsideMemory (start : UInt16)
  /-- A configuration places the program where no opcode fits. -/
  | programOutsideMemory (start : UInt16)
  /-- The host cannot read a rom, for a reason that it words itself. -/
  | unreadable (reason : String)
  deriving DecidableEq, Repr

namespace Fault

/-- The words in front of every fault of a configuration. -/
def configurationHeading : String := "invalid machine configuration: "

/-- The text of a fault. -/
def message : Fault → String
  | unknownOpcode opcode => "unknown opcode: 0x" ++ Text.hex 4 opcode.toNat
  | stackUnderflow => "stack underflow: return with an empty call stack"
  | stackOverflow depth => s!"stack overflow: call depth limit of {depth} reached"
  | outOfBounds address => "memory access out of bounds at address 0x" ++ Text.hex 4 address
  | invalidKey key => s!"invalid key 0x{Text.hex 2 key.toNat}, keys range from 0x0 to 0xF"
  | romTooLarge size room => s!"ROM is too large ({size} bytes), max size is {room} bytes"
  | fontOutsideMemory start => configurationHeading ++
      s!"font set at {Text.address start.toNat} does not fit in {Memory.size} bytes of ram"
  | programOutsideMemory start => configurationHeading ++
      s!"program start {Text.address start.toNat} lies outside of ram"
  | unreadable reason => s!"io error: {reason}"

end Fault

end Chip8
