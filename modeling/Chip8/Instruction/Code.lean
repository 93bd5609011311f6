import Chip8.Fault
import Chip8.Instruction.Basic

/-!
# Opcodes of instructions

Reading an opcode as an instruction, and writing an instruction as an opcode. Reading undoes
writing; writing undoes reading except that the two shifts forget the digit they ignore.
-/

namespace Chip8.Instruction

/-- The arithmetic of family 8, selected by the last digit. -/
def ofArithmetic? (x y : Register) (n : Digit) : Option Instruction :=
  match n.val with
  | 0x0 => some (load x y)
  | 0x1 => some (or x y)
  | 0x2 => some (and x y)
  | 0x3 => some (xor x y)
  | 0x4 => some (add x y)
  | 0x5 => some (sub x y)
  | 0x6 => some (shiftRight x)
  | 0x7 => some (subReversed x y)
  | 0xE => some (shiftLeft x)
  | _ => none

/-- The timers, the index register and memory: family F, selected by the last byte. -/
def ofTransfer? (x : Register) (kk : UInt8) : Option Instruction :=
  match kk with
  | 0x07 => some (loadDelayTimer x)
  | 0x0A => some (waitForKey x)
  | 0x15 => some (setDelayTimer x)
  | 0x18 => some (setSoundTimer x)
  | 0x1E => some (addToIndex x)
  | 0x29 => some (setIndexToGlyph x)
  | 0x33 => some (storeBcd x)
  | 0x55 => some (storeRegisters x)
  | 0x65 => some (loadRegisters x)
  | _ => none

/-- The instruction that an opcode stands for, if it stands for one. -/
def ofOpcode? (opcode : Opcode) : Option Instruction :=
  match opcode.family with
  | 0x0 =>
      if opcode = 0x00E0 then some clearScreen
      else if opcode = 0x00EE then some returnFromSubroutine
      else none
  | 0x1 => some (jump opcode.nnn)
  | 0x2 => some (call opcode.nnn)
  | 0x3 => some (skipIfEqualByte opcode.x opcode.kk)
  | 0x4 => some (skipIfNotEqualByte opcode.x opcode.kk)
  | 0x5 => if opcode.n.val = 0 then some (skipIfEqual opcode.x opcode.y) else none
  | 0x6 => some (loadByte opcode.x opcode.kk)
  | 0x7 => some (addByte opcode.x opcode.kk)
  | 0x8 => ofArithmetic? opcode.x opcode.y opcode.n
  | 0x9 => if opcode.n.val = 0 then some (skipIfNotEqual opcode.x opcode.y) else none
  | 0xA => some (setIndex opcode.nnn)
  | 0xB => some (jumpPlusV0 opcode.nnn)
  | 0xC => some (random opcode.x opcode.kk)
  | 0xD => some (draw opcode.x opcode.y opcode.n)
  | 0xE =>
      if opcode.kk = 0x9E then some (skipIfPressed opcode.x)
      else if opcode.kk = 0xA1 then some (skipIfNotPressed opcode.x)
      else none
  | 0xF => ofTransfer? opcode.x opcode.kk
  | _ => none

/-- The instruction that an opcode stands for, or the fault of an opcode that stands for none. -/
def ofOpcode (opcode : Opcode) : Except Fault Instruction :=
  match ofOpcode? opcode with
  | some instruction => .ok instruction
  | none => .error (.unknownOpcode opcode)

/-- The opcode of an instruction, with a zero where the digit is ignored. -/
def opcode : Instruction → Opcode
  | clearScreen => 0x00E0
  | returnFromSubroutine => 0x00EE
  | jump nnn => .ofAddress 0x1 nnn
  | call nnn => .ofAddress 0x2 nnn
  | skipIfEqualByte x kk => .ofByte 0x3 x kk
  | skipIfNotEqualByte x kk => .ofByte 0x4 x kk
  | skipIfEqual x y => .ofDigits 0x5 x y 0x0
  | loadByte x kk => .ofByte 0x6 x kk
  | addByte x kk => .ofByte 0x7 x kk
  | load x y => .ofDigits 0x8 x y 0x0
  | or x y => .ofDigits 0x8 x y 0x1
  | and x y => .ofDigits 0x8 x y 0x2
  | xor x y => .ofDigits 0x8 x y 0x3
  | add x y => .ofDigits 0x8 x y 0x4
  | sub x y => .ofDigits 0x8 x y 0x5
  | shiftRight x => .ofDigits 0x8 x Digit.zero 0x6
  | subReversed x y => .ofDigits 0x8 x y 0x7
  | shiftLeft x => .ofDigits 0x8 x Digit.zero 0xE
  | skipIfNotEqual x y => .ofDigits 0x9 x y 0x0
  | setIndex nnn => .ofAddress 0xA nnn
  | jumpPlusV0 nnn => .ofAddress 0xB nnn
  | random x kk => .ofByte 0xC x kk
  | draw x y n => .ofDigits 0xD x y n.val
  | skipIfPressed x => .ofByte 0xE x 0x9E
  | skipIfNotPressed x => .ofByte 0xE x 0xA1
  | loadDelayTimer x => .ofByte 0xF x 0x07
  | waitForKey x => .ofByte 0xF x 0x0A
  | setDelayTimer x => .ofByte 0xF x 0x15
  | setSoundTimer x => .ofByte 0xF x 0x18
  | addToIndex x => .ofByte 0xF x 0x1E
  | setIndexToGlyph x => .ofByte 0xF x 0x29
  | storeBcd x => .ofByte 0xF x 0x33
  | storeRegisters x => .ofByte 0xF x 0x55
  | loadRegisters x => .ofByte 0xF x 0x65

/-- Reading undoes writing, for every instruction. -/
@[simp] theorem ofOpcode?_opcode (instruction : Instruction) :
    ofOpcode? instruction.opcode = some instruction := by
  cases instruction
  case clearScreen => rfl
  case returnFromSubroutine => rfl
  all_goals simp [opcode, ofOpcode?, ofArithmetic?, ofTransfer?]

theorem ofOpcode_eq_ok_iff {opcode : Opcode} {instruction : Instruction} :
    ofOpcode opcode = .ok instruction ↔ ofOpcode? opcode = some instruction := by
  simp only [ofOpcode]
  split
  next found => simp [found]
  next unknown => simp [unknown]

theorem ofOpcode_eq_error_iff {opcode : Opcode} {fault : Fault} :
    ofOpcode opcode = .error fault ↔
      ofOpcode? opcode = none ∧ fault = .unknownOpcode opcode := by
  simp only [ofOpcode]
  split
  next found => simp [found]
  next unknown => simp [unknown, eq_comm]

end Chip8.Instruction
