import Chip8.CallStack
import Chip8.Config
import Chip8.Instruction.Text
import Chip8.Registers

/-!
# Events

What a machine reports while it works. An event is a value that says what happened; its level and
its wording are read off it.
-/

namespace Chip8

/-- How urgent an event is. -/
inductive Level where
  | info
  | debug
  | trace
  | warn
  deriving DecidableEq, Repr

def Level.name : Level → String
  | info => "INFO"
  | debug => "DEBUG"
  | trace => "TRACE"
  | warn => "WARN"

/-- Something worth reporting. -/
inductive Event where
  /-- A machine was built. -/
  | ready (config : Config)
  /-- A rom was read under a name. -/
  | romRead (name : String) (size : Nat)
  /-- A rom was put into memory. -/
  | romLoaded (size : Nat)
  /-- The opcode at an address was read as an instruction. -/
  | decoded (address : UInt16) (opcode : Opcode) (instruction : Instruction)
  /-- The opcode at an address could not be read. -/
  | undecodable (address : UInt16) (fault : Fault)
  /-- A call was opened. -/
  | called (target : Address) (returnTo : UInt16)
  /-- A call was closed. -/
  | returned (address : UInt16)
  /-- An instruction was refused. -/
  | refused (instruction : Instruction) (fault : Fault)
  /-- A cycle ended well, and left these registers, program counter and call depth. -/
  | cycled (registers : Registers) (pc : UInt16) (depth : Nat)
  /-- The timers were counted down to these values. -/
  | ticked (delay sound : UInt8)
  deriving DecidableEq, Repr

namespace Event

def level : Event → Level
  | ready .. | romRead .. | romLoaded .. => .info
  | decoded .. => .debug
  | called .. | returned .. | cycled .. | ticked .. => .trace
  | undecodable .. | refused .. => .warn

/-- The general registers, two digits each, in brackets. -/
def registersText (registers : Registers) : String :=
  "[" ++ ", ".intercalate (registers.general.toList.map fun value => Text.hex 2 value.toNat) ++ "]"

/-- The wording of an event. -/
def message : Event → String
  | ready config =>
      s!"machine ready [program start: {Text.address config.programStart.toNat}, " ++
      s!"font set: {Text.address config.fontStart.toNat}, stack depth: {config.stackDepth}]"
  | romRead name size => s!"read rom {name} [size: {size}]"
  | romLoaded size => s!"loaded rom [size: {size}]"
  | decoded address opcode instruction =>
      s!"{Text.address address.toNat} {Text.hex 4 opcode.toNat} {instruction.text}"
  | undecodable address fault =>
      s!"decode failed at {Text.address address.toNat}: {fault.message}"
  | called target returnTo =>
      s!"call {Text.address target.val}, return to {Text.address returnTo.toNat}"
  | returned address => s!"return to {Text.address address.toNat}"
  | refused instruction fault => s!"{instruction.text} failed: {fault.message}"
  | cycled registers pc depth =>
      s!"v{registersText registers} i{Text.hex 4 registers.index.toNat} " ++
      s!"pc{Text.hex 4 pc.toNat} sp{depth}"
  | ticked delay sound => s!"timers [delay: {delay.toNat}] [sound: {sound.toNat}]"

/-- An event as a line: its level and its wording. -/
def render (event : Event) : String :=
  event.level.name ++ " " ++ event.message

end Event

end Chip8
