import Chip8.Arithmetic
import Chip8.Machine.Basic

/-!
# Execution

What each instruction does to a machine whose program counter already points behind it. Execution
either gives the machine afterwards or a fault; with a fault there is no machine afterwards, so a
refused instruction cannot have changed anything.
-/

namespace Chip8

/-- What a cycle did. -/
inductive Progress where
  /-- The instruction was carried out. -/
  | executed
  /-- No key is pressed, so the same instruction is fetched again next time. -/
  | waitingForKey (register : Register)
  deriving DecidableEq, Repr

namespace Machine

def v (machine : Machine) (register : Register) : UInt8 :=
  machine.registers.get register

def setV (machine : Machine) (register : Register) (value : UInt8) : Machine :=
  { machine with registers := machine.registers.set register value }

/-- Put a result into a register and then its flag into the flag register. -/
def setVWithFlag (machine : Machine) (register : Register) (result : UInt8 × Bool) : Machine :=
  { machine with registers := machine.registers.setWithFlag register result }

def setIndex (machine : Machine) (index : UInt16) : Machine :=
  { machine with registers := { machine.registers with index } }

/-- Step over the next opcode if a condition holds. -/
def skipIf (machine : Machine) (condition : Bool) : Machine :=
  { machine with pc := if condition then machine.pc + 2 else machine.pc }

/-- Whether the key with the number in a register is pressed. -/
def keyIn (machine : Machine) (register : Register) : Except Fault Bool := do
  let key ← Key.ofByte (machine.v register)
  return machine.keypad.isPressed key

/-- Draw the sprite of `n` bytes at the index register, flag a collision and ask for a redraw. -/
def drawSprite (machine : Machine) (x y : Register) (n : Digit) : Except Fault Machine := do
  let sprite ← machine.memory.slice machine.registers.index n.val
  let drawn := machine.screen.draw (machine.v x) (machine.v y) sprite
  return { machine with
    screen := drawn.screen
    registers := machine.registers.setFlag drawn.collision
    redraw := true }

/-- Put the number of a pressed key into a register, or step back and wait. -/
def awaitKey (machine : Machine) (x : Register) : Progress × Machine :=
  match machine.keypad.lowest? with
  | some key => (.executed, machine.setV x key.toByte)
  | none => (.waitingForKey x, { machine with pc := machine.pc - 2 })

/-- Add a register to the index register. Where the configuration asks for it, the flag says that
the index register ends up past memory. -/
def addToIndex (machine : Machine) (x : Register) : Machine :=
  let index := machine.registers.index + (machine.v x).toUInt16
  let moved := { machine.registers with index }
  { machine with registers :=
      if machine.config.flagsIndexOverflow then moved.setFlag (decide (Memory.size ≤ index.toNat))
      else moved }

/-- Put bytes into memory from the index register on. -/
def storeAtIndex (machine : Machine) (bytes : List UInt8) : Except Fault Machine := do
  let memory ← machine.memory.load bytes machine.registers.index
  return { machine with memory }

/-- Fill the registers from `V0` up to one with the bytes at the index register. -/
def fetchRegisters (machine : Machine) (last : Register) : Except Fault Machine := do
  let bytes ← machine.memory.slice machine.registers.index (last.val + 1)
  return { machine with registers := machine.registers.setFirst bytes }

/-- The address of the glyph with the number in a register. -/
def glyphAddress (machine : Machine) (x : Register) : UInt16 :=
  machine.config.fontStart + UInt16.ofNat (Font.glyphSize * (machine.v x).toNat)

def executed (machine : Machine) : Except Fault (Progress × Machine) :=
  .ok (.executed, machine)

/-- Carry out an instruction. -/
def execute (machine : Machine) :
    Instruction → Except Fault (Progress × Machine)
  | .clearScreen => executed { machine with screen := .blank, redraw := true }
  | .returnFromSubroutine => do
      let (pc, stack) ← machine.stack.pop
      executed { machine with pc, stack }
  | .jump nnn => executed { machine with pc := nnn.toWord }
  | .call nnn => do
      let stack ← machine.stack.push machine.config.stackDepth machine.pc
      executed { machine with pc := nnn.toWord, stack }
  | .skipIfEqualByte x kk => executed (machine.skipIf (machine.v x == kk))
  | .skipIfNotEqualByte x kk => executed (machine.skipIf (machine.v x != kk))
  | .skipIfEqual x y => executed (machine.skipIf (machine.v x == machine.v y))
  | .loadByte x kk => executed (machine.setV x kk)
  | .addByte x kk => executed (machine.setV x (machine.v x + kk))
  | .load x y => executed (machine.setV x (machine.v y))
  | .or x y => executed (machine.setV x (machine.v x ||| machine.v y))
  | .and x y => executed (machine.setV x (machine.v x &&& machine.v y))
  | .xor x y => executed (machine.setV x (machine.v x ^^^ machine.v y))
  | .add x y =>
      executed (machine.setVWithFlag x (Arithmetic.add (machine.v x) (machine.v y)))
  | .sub x y =>
      executed (machine.setVWithFlag x (Arithmetic.sub (machine.v x) (machine.v y)))
  | .shiftRight x => executed (machine.setVWithFlag x (Arithmetic.half (machine.v x)))
  | .subReversed x y =>
      executed (machine.setVWithFlag x (Arithmetic.sub (machine.v y) (machine.v x)))
  | .shiftLeft x => executed (machine.setVWithFlag x (Arithmetic.double (machine.v x)))
  | .skipIfNotEqual x y => executed (machine.skipIf (machine.v x != machine.v y))
  | .setIndex nnn => executed (machine.setIndex nnn.toWord)
  | .jumpPlusV0 nnn => executed { machine with pc := nnn.toWord + (machine.v .zero).toUInt16 }
  | .random x kk =>
      executed { machine.setV x (machine.random.byte &&& kk) with
        random := machine.random.advance }
  | .draw x y n => do executed (← machine.drawSprite x y n)
  | .skipIfPressed x => do
      let pressed ← machine.keyIn x
      executed (machine.skipIf pressed)
  | .skipIfNotPressed x => do
      let pressed ← machine.keyIn x
      executed (machine.skipIf (!pressed))
  | .loadDelayTimer x => executed (machine.setV x machine.registers.delay)
  | .waitForKey x => .ok (machine.awaitKey x)
  | .setDelayTimer x =>
      executed { machine with registers := { machine.registers with delay := machine.v x } }
  | .setSoundTimer x =>
      executed { machine with registers := { machine.registers with sound := machine.v x } }
  | .addToIndex x => executed (machine.addToIndex x)
  | .setIndexToGlyph x => executed (machine.setIndex (machine.glyphAddress x))
  | .storeBcd x => do executed (← machine.storeAtIndex (Arithmetic.decimalDigits (machine.v x)))
  | .storeRegisters x => do executed (← machine.storeAtIndex (machine.registers.upTo x))
  | .loadRegisters x => do executed (← machine.fetchRegisters x)

end Machine

end Chip8
