import Chip8.Instruction.Text
import Chip8.Machine.Cycle
import Chip8.Proofs.Instruction.Reading
import Chip8.Proofs.Memory.Words

/-!
# The instruction set is read and written without loss

Writing an instruction as an opcode and reading it again gives the instruction. Reading an opcode and
writing what was found gives the opcode, but for the digit that the two shifts ignore. So an opcode
is refused exactly when no instruction is written as it, and two opcodes are read as one instruction
only if they belong to the same shift of the same register.
-/

namespace Chip8

namespace Opcode

/-- The bits of an opcode without those of its third digit. -/
def withoutY (opcode : Opcode) : Opcode :=
  opcode &&& 0xFF0F

theorem withoutY_ofDigits_shift (x y : Digit) :
    (ofDigits 0x8 x y 0x6).withoutY = ofDigits 0x8 x .zero 0x6 ∧
      (ofDigits 0x8 x y 0xE).withoutY = ofDigits 0x8 x .zero 0xE := by
  revert x y
  decide +kernel

theorem ofBytes_eq_or (high low : UInt8) :
    ofBytes high low = high.toUInt16 <<< 8 ||| low.toUInt16 := by
  have inside : high.toNat <<< 8 < 65536 := by
    rw [Nat.shiftLeft_eq]
    exact Nat.mul_lt_mul_of_pos_right high.toNat_lt (by decide)
  apply UInt16.toNat_inj.mp
  calc
    (ofBytes high low).toNat = high.toNat * 256 + low.toNat := toNat_ofBytes high low
    _ = high.toNat <<< 8 + low.toNat := by rw [Nat.shiftLeft_eq]
    _ = high.toNat <<< 8 ||| low.toNat := Nat.shiftLeft_add_eq_or_of_lt low.toNat_lt _
    _ = high.toNat <<< 8 % 65536 ||| low.toNat := by rw [Nat.mod_eq_of_lt inside]
    _ = (high.toUInt16 <<< 8 ||| low.toUInt16).toNat := by
      simp only [UInt16.toNat_or, UInt16.toNat_shiftLeft, UInt8.toNat_toUInt16,
        UInt16.reduceToNat, Nat.reduceMod, Nat.reducePow]

end Opcode

namespace Operand

/-- The number of values for which an opcode has room in the place of an operand. -/
def room (operand : Operand) : Nat :=
  match operand.letter with
  | "x" | "y" | "n" => 16
  | "kk" => 256
  | "nnn" => 4096
  | _ => 0

end Operand

namespace Instruction

/-- Instructions that ignore the third digit of their opcode. -/
def isShift : Instruction → Bool
  | shiftRight _ | shiftLeft _ => true
  | _ => false

/-- Every operand of an instruction has room in an opcode. -/
theorem value_lt_room (instruction : Instruction) :
    ∀ operand ∈ instruction.parts.2, operand.value < operand.room := by
  have x_lt (register : Register) : (Operand.x register).value < (Operand.x register).room :=
    register.isLt
  have y_lt (register : Register) : (Operand.y register).value < (Operand.y register).room :=
    register.isLt
  have n_lt (digit : Digit) : (Operand.n digit).value < (Operand.n digit).room :=
    digit.isLt
  have kk_lt (byte : UInt8) : (Operand.kk byte).value < (Operand.kk byte).room :=
    byte.toNat_lt
  have nnn_lt (address : Address) : (Operand.nnn address).value < (Operand.nnn address).room :=
    address.isLt
  cases instruction <;> simp [parts, x_lt, y_lt, n_lt, kk_lt, nnn_lt]

variable {word left right : Opcode} {instruction : Instruction}

/-- An instruction is written as the opcode that is read as it, with a zero for an ignored digit. -/
theorem opcode_of_writtenAs (written : instruction.WrittenAs word) :
    instruction.opcode = if instruction.isShift then word.withoutY else word := by
  cases instruction
  case shiftRight x =>
    rcases written with ⟨y, rfl⟩
    exact (Opcode.withoutY_ofDigits_shift x y).1.symm
  case shiftLeft x =>
    rcases written with ⟨y, rfl⟩
    exact (Opcode.withoutY_ofDigits_shift x y).2.symm
  all_goals exact Eq.symm written

/-- Only the shifts have several opcodes, which then differ in the third digit alone. -/
theorem shift_of_writtenAs (different : left ≠ right) (leftWritten : instruction.WrittenAs left)
    (rightWritten : instruction.WrittenAs right) :
    ∃ x y z n, (n = 0x6 ∨ n = 0xE) ∧ left = .ofDigits 0x8 x y n ∧ right = .ofDigits 0x8 x z n := by
  cases instruction
  case shiftRight x =>
    rcases leftWritten with ⟨y, rfl⟩
    rcases rightWritten with ⟨z, rfl⟩
    exact ⟨x, y, z, 0x6, .inl rfl, rfl, rfl⟩
  case shiftLeft x =>
    rcases leftWritten with ⟨y, rfl⟩
    rcases rightWritten with ⟨z, rfl⟩
    exact ⟨x, y, z, 0xE, .inr rfl, rfl, rfl⟩
  all_goals exact absurd (Eq.trans leftWritten (Eq.symm rightWritten)) different

theorem opcode_ne_of_unknown (unknown : ofOpcode? word = none) (instruction : Instruction) :
    instruction.opcode ≠ word := by
  intro same
  rw [← same, ofOpcode?_opcode] at unknown
  cases unknown

end Instruction

/-- Reading accepts the opcodes of instructions and those that differ from them only in a digit that a
shift ignores; what it finds has room in an opcode and is written as the opcode that was read, without
that digit. Every other opcode is refused by name, and no instruction is written as it. A cycle reads
this way, and the word that it reads from two bytes in memory is the one that the bytes make. -/
theorem Instruction.ofOpcode_inverts_opcode :
    (∀ instruction : Instruction, ofOpcode instruction.opcode = .ok instruction) ∧
    (∀ word instruction, ofOpcode word = .ok instruction →
      (∀ operand ∈ instruction.parts.2, operand.value < operand.room) ∧
        instruction.opcode = if instruction.isShift then word.withoutY else word) ∧
    (∀ word, (∀ instruction, ofOpcode word ≠ .ok instruction) →
      ofOpcode word = .error (.unknownOpcode word) ∧
        ∀ instruction : Instruction, instruction.opcode ≠ word) ∧
    (∀ left right instruction, left ≠ right →
      ofOpcode left = .ok instruction → ofOpcode right = .ok instruction →
        ∃ x y z n, (n = 0x6 ∨ n = 0xE) ∧
          left = .ofDigits 0x8 x y n ∧ right = .ofDigits 0x8 x z n) ∧
    (∀ (memory : Memory) (high low : UInt8) (address : UInt16), address.toNat ≤ 0xFFE →
      ∃ after, memory.load [high, low] address = .ok after ∧
        after.opcodeAt address = .ok (.ofBytes high low) ∧
        Opcode.ofBytes high low = high.toUInt16 <<< 8 ||| low.toUInt16) ∧
    ∀ (machine : Machine) address word,
      machine.interpret address word =
        match ofOpcode word with
        | .ok instruction => machine.carryOut address word instruction
        | .error fault => ⟨.error fault, machine, [.undecodable address fault]⟩ := by
  refine ⟨?_, ?_, ?_, ?_, ?_, ?_⟩
  · intro instruction
    exact ofOpcode_eq_ok_iff.mpr (ofOpcode?_opcode instruction)
  · intro word instruction found
    have written := ofOpcode?_eq_some_iff.mp (ofOpcode_eq_ok_iff.mp found)
    exact ⟨instruction.value_lt_room, opcode_of_writtenAs written⟩
  · intro word unread
    have unknown : ofOpcode? word = none := by
      apply Option.eq_none_iff_forall_ne_some.mpr
      intro instruction found
      exact unread instruction (ofOpcode_eq_ok_iff.mpr found)
    exact ⟨ofOpcode_eq_error_iff.mpr ⟨unknown, rfl⟩, opcode_ne_of_unknown unknown⟩
  · intro left right instruction different leftFound rightFound
    apply shift_of_writtenAs different
    · exact ofOpcode?_eq_some_iff.mp (ofOpcode_eq_ok_iff.mp leftFound)
    · exact ofOpcode?_eq_some_iff.mp (ofOpcode_eq_ok_iff.mp rightFound)
  · intro memory high low address inside
    have fits : Memory.Fits address [high, low].length := Nat.add_le_add_right inside 2
    refine ⟨_, Memory.load_eq_ok_iff.mpr ⟨fits, rfl⟩, ?_, Opcode.ofBytes_eq_or high low⟩
    exact Memory.opcodeAt_write memory high low fits
  · intro machine address word
    simp only [Machine.interpret, ofOpcode]
    cases ofOpcode? word with
    | some instruction => rfl
    | none => rfl

theorem Instruction.ofOpcode_inverts_opcode_of_shift :
    (0x8FB6 : Opcode) ≠ 0x8FC6 ∧
      ofOpcode 0x8FB6 = .ok (shiftRight .flag) ∧ ofOpcode 0x8FC6 = .ok (shiftRight .flag) ∧
      (shiftRight .flag).opcode = (0x8FB6 : Opcode).withoutY ∧
      (∃ x y z n, (n = 0x6 ∨ n = 0xE) ∧ 0x8FB6 = Opcode.ofDigits 0x8 x y n ∧
        0x8FC6 = Opcode.ofDigits 0x8 x z n) ∧
      ofOpcode 0x5121 = .error (.unknownOpcode 0x5121) ∧
      (∀ instruction : Instruction, instruction.opcode ≠ 0x5121) ∧
      ∃ after, Memory.blank.load [0x8F, 0xB6] 0xFFE = .ok after ∧
        after.opcodeAt 0xFFE = .ok (.ofBytes 0x8F 0xB6) := by
  have first : ofOpcode 0x8FB6 = .ok (shiftRight .flag) :=
    ofOpcode_eq_ok_iff.mpr (by decide)
  have second : ofOpcode 0x8FC6 = .ok (shiftRight .flag) :=
    ofOpcode_eq_ok_iff.mpr (by decide)
  have different : (0x8FB6 : Opcode) ≠ 0x8FC6 := by decide
  rcases ofOpcode_inverts_opcode with ⟨_, reads, refuses, shares, loads, _⟩
  have unread : ∀ instruction, ofOpcode 0x5121 ≠ .ok instruction := by
    intro instruction found
    cases found
  rcases refuses 0x5121 unread with ⟨refused, unwritten⟩
  rcases loads .blank 0x8F 0xB6 0xFFE (by decide) with ⟨after, loaded, there, _⟩
  exact ⟨different, first, second, (reads _ _ first).2, shares _ _ _ different first second,
    refused, unwritten, after, loaded, there⟩

end Chip8
