import Chip8.Instruction.Code

/-!
# Reading opcodes

Which opcodes are written for an instruction, said without reading them: the opcode of the
instruction and, for the two shifts, also those that differ in the digit that shifts ignore.
`ofOpcode?_eq_some_iff` identifies reading with this relation in both directions, so an opcode is
unknown exactly when it is written for no instruction.
-/

namespace Chip8

namespace Opcode

variable {opcode : Opcode}

theorem eq_ofAddress {family : Nat} (first : opcode.family = family) :
    opcode = ofAddress family opcode.nnn := by
  subst first
  exact opcode.ofAddress_eta.symm

theorem eq_ofByte {family : Nat} {kk : UInt8} (first : opcode.family = family)
    (last : opcode.kk = kk) : opcode = ofByte family opcode.x kk := by
  subst first last
  exact opcode.ofByte_eta.symm

theorem eq_ofDigits {family n : Nat} (first : opcode.family = family) (last : opcode.n.val = n) :
    opcode = ofDigits family opcode.x opcode.y n := by
  subst first last
  exact opcode.ofDigits_eta.symm

end Opcode

namespace Instruction

/-- The opcodes that are written for an instruction. The third digit of a shift is free. -/
def WrittenAs : Instruction → Opcode → Prop
  | shiftRight x, opcode => ∃ y, opcode = .ofDigits 0x8 x y 0x6
  | shiftLeft x, opcode => ∃ y, opcode = .ofDigits 0x8 x y 0xE
  | instruction, opcode => opcode = instruction.opcode

section Soundness

variable {opcode : Opcode} {instruction : Instruction}

theorem writtenAs_of_ofArithmetic? (first : opcode.family = 0x8)
    (found : ofArithmetic? opcode.x opcode.y opcode.n = some instruction) :
    instruction.WrittenAs opcode := by
  unfold ofArithmetic? at found
  split at found <;> cases found
  case h_7 last => exact ⟨opcode.y, Opcode.eq_ofDigits first last⟩
  case h_9 last => exact ⟨opcode.y, Opcode.eq_ofDigits first last⟩
  all_goals
    next last => exact Opcode.eq_ofDigits first last

theorem writtenAs_of_ofTransfer? (first : opcode.family = 0xF)
    (found : ofTransfer? opcode.x opcode.kk = some instruction) :
    instruction.WrittenAs opcode := by
  unfold ofTransfer? at found
  split at found <;> cases found
  all_goals
    next last => exact Opcode.eq_ofByte first last

theorem writtenAs_of_ofOpcode? (found : ofOpcode? opcode = some instruction) :
    instruction.WrittenAs opcode := by
  unfold ofOpcode? at found
  split at found
  case h_1 =>
    split at found
    next clear => cases found; exact clear
    next =>
      split at found
      next back => cases found; exact back
      next => cases found
  case h_2 first | h_3 first | h_11 first | h_12 first =>
    cases found
    exact Opcode.eq_ofAddress first
  case h_4 first | h_5 first | h_7 first | h_8 first | h_13 first =>
    cases found
    exact Opcode.eq_ofByte first rfl
  case h_6 first | h_10 first =>
    split at found
    next last => cases found; exact Opcode.eq_ofDigits first last
    next => cases found
  case h_9 first => exact writtenAs_of_ofArithmetic? first found
  case h_14 first =>
    cases found
    exact Opcode.eq_ofDigits first rfl
  case h_15 first =>
    split at found
    next last => cases found; exact Opcode.eq_ofByte first last
    next =>
      split at found
      next last => cases found; exact Opcode.eq_ofByte first last
      next => cases found
  case h_16 first => exact writtenAs_of_ofTransfer? first found
  case h_17 => cases found

end Soundness

/-- Reading finds the instruction whatever the free digit of a shift is. -/
theorem ofOpcode?_of_writtenAs {instruction : Instruction} {opcode : Opcode}
    (written : instruction.WrittenAs opcode) : ofOpcode? opcode = some instruction := by
  cases instruction
  case shiftRight x | shiftLeft x =>
    rcases written with ⟨y, rfl⟩
    simp [ofOpcode?, ofArithmetic?]
  all_goals
    rw [show opcode = Instruction.opcode _ from written]
    exact ofOpcode?_opcode _

/-- Reading finds exactly the instruction that an opcode is written for. -/
theorem ofOpcode?_eq_some_iff {opcode : Opcode} {instruction : Instruction} :
    ofOpcode? opcode = some instruction ↔ instruction.WrittenAs opcode :=
  ⟨writtenAs_of_ofOpcode?, ofOpcode?_of_writtenAs⟩

theorem eq_of_opcode {opcode : Opcode} {instruction other : Instruction}
    (known : ofOpcode? opcode = some instruction) (written : opcode = other.opcode) :
    instruction = other := by
  rw [written, ofOpcode?_opcode] at known
  exact (Option.some.inj known).symm

/-- An opcode is unknown exactly when it is written for no instruction. -/
theorem ofOpcode?_eq_none_iff {opcode : Opcode} :
    ofOpcode? opcode = none ↔ ∀ instruction : Instruction, ¬ instruction.WrittenAs opcode := by
  simp only [Option.eq_none_iff_forall_ne_some, ne_eq, ofOpcode?_eq_some_iff]

end Instruction

end Chip8
