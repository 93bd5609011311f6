import Chip8.Instruction.Basic

/-!
# The text of an instruction

An instruction is shown as its name, followed by its operands with their names and decimal values
in braces. An instruction without operands is its name alone.
-/

namespace Chip8

/-- An operand with the letter that stands for it in the opcode. -/
structure Operand where
  letter : String
  value : Nat

namespace Operand

def text (operand : Operand) : String :=
  operand.letter ++ ": " ++ toString operand.value

/-- A register number in the second digit. -/
def x (register : Register) : Operand := ⟨"x", register.val⟩

/-- A register number in the third digit. -/
def y (register : Register) : Operand := ⟨"y", register.val⟩

/-- A last digit. -/
def n (digit : Digit) : Operand := ⟨"n", digit.val⟩

/-- A byte in the last two digits. -/
def kk (byte : UInt8) : Operand := ⟨"kk", byte.toNat⟩

/-- An address in the last three digits. -/
def nnn (address : Address) : Operand := ⟨"nnn", address.val⟩

end Operand

namespace Instruction

/-- The name and the operands of an instruction, in the order in which they are shown. -/
def parts : Instruction → String × List Operand
  | clearScreen => ("ClearScreen", [])
  | returnFromSubroutine => ("ReturnFromSubroutine", [])
  | jump nnn => ("Jump", [.nnn nnn])
  | call nnn => ("Call", [.nnn nnn])
  | skipIfEqualByte x kk => ("SkipIfEqualByte", [.x x, .kk kk])
  | skipIfNotEqualByte x kk => ("SkipIfNotEqualByte", [.x x, .kk kk])
  | skipIfEqual x y => ("SkipIfEqual", [.x x, .y y])
  | loadByte x kk => ("LoadByte", [.x x, .kk kk])
  | addByte x kk => ("AddByte", [.x x, .kk kk])
  | load x y => ("Load", [.x x, .y y])
  | or x y => ("Or", [.x x, .y y])
  | and x y => ("And", [.x x, .y y])
  | xor x y => ("Xor", [.x x, .y y])
  | add x y => ("Add", [.x x, .y y])
  | sub x y => ("Sub", [.x x, .y y])
  | shiftRight x => ("ShiftRight", [.x x])
  | subReversed x y => ("SubReversed", [.x x, .y y])
  | shiftLeft x => ("ShiftLeft", [.x x])
  | skipIfNotEqual x y => ("SkipIfNotEqual", [.x x, .y y])
  | setIndex nnn => ("SetIndex", [.nnn nnn])
  | jumpPlusV0 nnn => ("JumpPlusV0", [.nnn nnn])
  | random x kk => ("Random", [.x x, .kk kk])
  | draw x y n => ("Draw", [.x x, .y y, .n n])
  | skipIfPressed x => ("SkipIfPressed", [.x x])
  | skipIfNotPressed x => ("SkipIfNotPressed", [.x x])
  | loadDelayTimer x => ("LoadDelayTimer", [.x x])
  | waitForKey x => ("WaitForKey", [.x x])
  | setDelayTimer x => ("SetDelayTimer", [.x x])
  | setSoundTimer x => ("SetSoundTimer", [.x x])
  | addToIndex x => ("AddToIndex", [.x x])
  | setIndexToGlyph x => ("SetIndexToGlyph", [.x x])
  | storeBcd x => ("StoreBcd", [.x x])
  | storeRegisters x => ("StoreRegisters", [.x x])
  | loadRegisters x => ("LoadRegisters", [.x x])

def text (instruction : Instruction) : String :=
  match instruction.parts with
  | (name, []) => name
  | (name, operands) =>
      name ++ " \x7b " ++ ", ".intercalate (operands.map Operand.text) ++ " \x7d"

end Instruction

end Chip8
