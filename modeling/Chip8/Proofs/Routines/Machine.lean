import Chip8.Proofs.Routines.Basic

/-!
# The routines of a machine

What a machine does for each request, spelled out one statement after the other. Sums, differences
and products of words are those that trap, checks come where they are made, and each part of the
machine is written when its turn comes. Nothing here knows that a refused request changes nothing or
that no number ever runs over.
-/

namespace Chip8.Routine

open Machine

/-! ## Single statements -/

def setPc (pc : UInt16) : Routine Unit := write fun machine => { machine with pc }

def setRegister (register : Register) (value : UInt8) : Routine Unit :=
  write fun machine => machine.setV register value

def setFlag (flag : Bool) : Routine Unit :=
  write fun machine => { machine with registers := machine.registers.setFlag flag }

def setIndex (index : UInt16) : Routine Unit := write fun machine => machine.setIndex index

def skipIf (condition : Bool) : Routine Unit :=
  if condition then do
    let target ← plus (← inspect).pc 2
    setPc target
  else pure ()

/-- Ask whether the key with the number in a register is pressed. -/
def pressed (x : Register) : Routine Bool := do
  let machine ← inspect
  let key ← check (Key.ofByte (machine.v x))
  return machine.keypad.isPressed key

/-- Copy bytes over the `count` bytes of memory from `start` on. The range is looked up before the
bytes are; there is a trap if it is longer than they are, or shorter. -/
def copyOver (start : UInt16) (count : Nat) (source : Routine (List UInt8)) : Routine Unit := do
  let _ ← check ((← inspect).memory.slice start count)
  let bytes ← source
  demand (if bytes.length = count then some () else none)
  write fun machine => { machine with memory := machine.memory.write start.toNat bytes }

/-- Put bytes into the registers one after the other, the first into that with a number. -/
def setRegistersFrom : Nat → List UInt8 → Routine Unit
  | _, [] => pure ()
  | number, value :: rest => do
      let register ← demand (Register.ofNat? number)
      setRegister register value
      setRegistersFrom (number + 1) rest

/-! ## Instructions -/

def setWithFlag (x : Register) (result : UInt8 × Bool) : Routine Progress := do
  setRegister x result.1
  setFlag result.2
  return .executed

/-- Carry out an instruction behind which the machine has moved. -/
def execute : Instruction → Routine Progress
  | .clearScreen => do
      write fun machine => { machine with screen := .blank }
      write fun machine => { machine with redraw := true }
      return .executed
  | .returnFromSubroutine => do
      let (target, stack) ← check (← inspect).stack.pop
      write fun machine => { machine with stack }
      setPc target
      report (.returned (← inspect).pc)
      return .executed
  | .jump nnn => do
      setPc nnn.toWord
      return .executed
  | .call nnn => do
      let machine ← inspect
      let stack ← check (machine.stack.push machine.config.stackDepth machine.pc)
      write fun machine => { machine with stack }
      report (.called nnn (← inspect).pc)
      setPc nnn.toWord
      return .executed
  | .skipIfEqualByte x kk => do
      skipIf ((← inspect).v x == kk)
      return .executed
  | .skipIfNotEqualByte x kk => do
      skipIf ((← inspect).v x != kk)
      return .executed
  | .skipIfEqual x y => do
      skipIf ((← inspect).v x == (← inspect).v y)
      return .executed
  | .loadByte x kk => do
      setRegister x kk
      return .executed
  | .addByte x kk => do
      setRegister x ((← inspect).v x + kk)
      return .executed
  | .load x y => do
      setRegister x ((← inspect).v y)
      return .executed
  | .or x y => do
      setRegister x ((← inspect).v x ||| (← inspect).v y)
      return .executed
  | .and x y => do
      setRegister x ((← inspect).v x &&& (← inspect).v y)
      return .executed
  | .xor x y => do
      setRegister x ((← inspect).v x ^^^ (← inspect).v y)
      return .executed
  | .add x y => do setWithFlag x (Arithmetic.add ((← inspect).v x) ((← inspect).v y))
  | .sub x y => do setWithFlag x (Arithmetic.sub ((← inspect).v x) ((← inspect).v y))
  | .shiftRight x => do setWithFlag x (Arithmetic.half ((← inspect).v x))
  | .subReversed x y => do setWithFlag x (Arithmetic.sub ((← inspect).v y) ((← inspect).v x))
  | .shiftLeft x => do setWithFlag x (Arithmetic.double ((← inspect).v x))
  | .skipIfNotEqual x y => do
      skipIf ((← inspect).v x != (← inspect).v y)
      return .executed
  | .setIndex nnn => do
      setIndex nnn.toWord
      return .executed
  | .jumpPlusV0 nnn => do
      let target ← plus nnn.toWord ((← inspect).v .zero).toUInt16
      setPc target
      return .executed
  | .random x kk => do
      let byte := (← inspect).random.byte
      write fun machine => { machine with random := machine.random.advance }
      setRegister x (byte &&& kk)
      return .executed
  | .draw x y n => do
      let machine ← inspect
      let sprite ← check (machine.memory.slice machine.registers.index n.val)
      let drawn := machine.screen.draw (machine.v x) (machine.v y) sprite
      write fun machine => { machine with screen := drawn.screen }
      setFlag drawn.collision
      write fun machine => { machine with redraw := true }
      return .executed
  | .skipIfPressed x => do
      skipIf (← pressed x)
      return .executed
  | .skipIfNotPressed x => do
      skipIf !(← pressed x)
      return .executed
  | .loadDelayTimer x => do
      setRegister x (← inspect).registers.delay
      return .executed
  | .waitForKey x => do
      match (← inspect).keypad.lowest? with
      | some key =>
          setRegister x key.toByte
          return .executed
      | none =>
          let same ← minus (← inspect).pc 2
          setPc same
          return .waitingForKey x
  | .setDelayTimer x => do
      let delay := (← inspect).v x
      write fun machine => { machine with registers := { machine.registers with delay } }
      return .executed
  | .setSoundTimer x => do
      let sound := (← inspect).v x
      write fun machine => { machine with registers := { machine.registers with sound } }
      return .executed
  | .addToIndex x => do
      let machine ← inspect
      let sum := machine.registers.index + (machine.v x).toUInt16
      setIndex sum
      if machine.config.flagsIndexOverflow then setFlag (decide (Memory.size ≤ sum.toNat))
      return .executed
  | .setIndexToGlyph x => do
      let machine ← inspect
      let offset ← times (machine.v x).toUInt16 (UInt16.ofNat Font.glyphSize)
      let address ← plus machine.config.fontStart offset
      setIndex address
      return .executed
  | .storeBcd x => do
      let machine ← inspect
      copyOver machine.registers.index 3 (pure (Arithmetic.decimalDigits (machine.v x)))
      return .executed
  | .storeRegisters x => do
      let machine ← inspect
      copyOver machine.registers.index (x.val + 1) (leading machine.registers (x.val + 1))
      return .executed
  | .loadRegisters x => do
      let machine ← inspect
      let bytes ← check (machine.memory.slice machine.registers.index (x.val + 1))
      setRegistersFrom 0 bytes
      return .executed

/-! ## Requests -/

/-- Read an opcode behind which the machine has moved, and carry it out. -/
def interpret (opcode : Opcode) : Routine Progress := do
  let instruction ← onFault (check (Instruction.ofOpcode opcode)) fun fault => do
    let address ← minus (← inspect).pc 2
    report (.undecodable address fault)
  let address ← minus (← inspect).pc 2
  report (.decoded address opcode instruction)
  let progress ← onFault (execute instruction) fun fault => report (.refused instruction fault)
  report (← inspect).cycledEvent
  return progress

def cycle : Routine Progress := do
  let machine ← inspect
  let opcode ← check (machine.memory.opcodeAt machine.pc)
  write fun machine => { machine with opcode }
  let behind ← plus (← inspect).pc 2
  setPc behind
  interpret opcode

/-- Cycle until `limit` cycles are done or one of them did not execute its instruction. -/
def cycles : (limit : Nat) → Routine Progress
  | 0 => pure .executed
  | limit + 1 => do
      match ← cycle with
      | .executed => cycles limit
      | .waitingForKey register => return .waitingForKey register

def tick : Routine Unit := do
  write fun machine => { machine with registers := machine.registers.tick }
  let registers := (← inspect).registers
  report (.ticked registers.delay registers.sound)

def frame (limit : Nat) : Routine Progress := do
  let progress ← cycles limit
  tick
  return progress

def load (bytes : List UInt8) (start : UInt16) : Routine Unit :=
  copyOver start bytes.length (pure bytes)

def loadRom (rom : Rom) : Routine Unit := do
  let machine ← inspect
  let room ← beyond Memory.size machine.config.programStart
  if rom.size ≤ room then do
    load rom.bytes machine.config.programStart
    report (.romLoaded rom.size)
  else check (.error (.romTooLarge rom.size room))

def setKey (number : UInt8) (pressed : Bool) : Routine Unit := do
  let key ← check (Key.ofByte number)
  write fun machine => { machine with keypad := machine.keypad.set key pressed }

def releaseKeys : Routine Unit := write fun machine => { machine with keypad := .released }

def takeRedraw : Routine Bool := do
  let wanted := (← inspect).redraw
  write fun machine => { machine with redraw := false }
  return wanted

/-- Meet a request. -/
def perform : Request → Routine Answer
  | .loadRom rom => do
      loadRom rom
      return .done
  | .load bytes start => do
      load bytes start
      return .done
  | .cycle => do return .progress (← cycle)
  | .frame limit => do return .progress (← frame limit)
  | .tick => do
      tick
      return .done
  | .setKey key pressed => do
      setKey key pressed
      return .done
  | .releaseKeys => do
      releaseKeys
      return .done
  | .takeRedraw => do return .redraw (← takeRedraw)

end Chip8.Routine
