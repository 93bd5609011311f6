import Chip8.Proofs.Routines.Agreement

/-!
# Requests are safe

Whatever a host asks of a machine that was built, in whatever order and with whatever arguments, the
safety invariant holds afterwards, and no request can trap: strictly computed, every statement of
every request goes through, and all of them come to the reply of the machine.
-/

namespace Chip8

/-- A digit of an opcode as it is cut out of the word, the family being at place zero. -/
def Opcode.nibble (opcode : Opcode) (place : Nat) : Nat :=
  ((opcode >>> UInt16.ofNat (12 - 4 * place)) &&& 0xF).toNat

theorem Opcode.nibble_one (opcode : Opcode) : opcode.nibble 1 = opcode.x.val := by
  have masked := Nat.and_two_pow_sub_one_eq_mod (opcode.toNat / 256) 4
  rw [nibble, UInt16.toNat_and, UInt16.toNat_shiftRight, Nat.shiftRight_eq_div_pow]
  exact masked

theorem Opcode.nibble_two (opcode : Opcode) : opcode.nibble 2 = opcode.y.val := by
  have masked := Nat.and_two_pow_sub_one_eq_mod (opcode.toNat / 16) 4
  rw [nibble, UInt16.toNat_and, UInt16.toNat_shiftRight, Nat.shiftRight_eq_div_pow]
  exact masked

/-- The general registers that an instruction names. -/
def Instruction.registers : Instruction → List Register
  | clearScreen | returnFromSubroutine | jump _ | call _ | setIndex _ | jumpPlusV0 _ => []
  | skipIfEqualByte x _ | skipIfNotEqualByte x _ | loadByte x _ | addByte x _ | random x _ => [x]
  | shiftRight x | shiftLeft x | skipIfPressed x | skipIfNotPressed x | loadDelayTimer x => [x]
  | waitForKey x | setDelayTimer x | setSoundTimer x | addToIndex x | setIndexToGlyph x => [x]
  | storeBcd x | storeRegisters x | loadRegisters x => [x]
  | skipIfEqual x y | skipIfNotEqual x y | load x y | or x y | and x y | xor x y => [x, y]
  | add x y | sub x y | subReversed x y | draw x y _ => [x, y]

/-- An opcode names registers by its second digit and, if two, by its third. -/
theorem Instruction.registers_of_ofOpcode? {opcode : Opcode} {instruction : Instruction}
    (known : ofOpcode? opcode = some instruction) :
    instruction.registers <+: [opcode.x, opcode.y] := by
  have written := writtenAs_of_ofOpcode? known
  cases instruction with
  | shiftRight x | shiftLeft x =>
      rcases written with ⟨y, rfl⟩
      simp [registers]
  | _ =>
      cases (written : opcode = Instruction.opcode _)
      simp [registers, Instruction.opcode]

theorem Register.ofNat?_val (register : Register) : ofNat? register.val = some register :=
  dif_pos register.isLt

namespace Machine

variable {config : Config} {machine : Machine}

/-- Requests keep a machine safe and never trap, refused ones included. The registers that an
instruction names are cut out of its opcode, each by a digit that numbers a register. -/
theorem safe_afterAll {source : Random.Source} (built : build config source = .ok machine)
    (requests : List Request) :
    let after := machine.afterAll requests
    after.pc.toNat ≤ 0x10FE ∧
      after.stack.returns.length ≤ config.stackDepth ∧
      (∀ address ∈ after.stack.returns, 0x002 ≤ address.toNat ∧ address.toNat ≤ 0x1000) ∧
      after.config = config ∧
      (∀ request, Routine.perform request after = some (after.perform request)) ∧
      ∀ opcode : Opcode, Register.ofNat? (opcode.nibble 1) = some opcode.x ∧
        Register.ofNat? (opcode.nibble 2) = some opcode.y ∧
        ∀ instruction, Instruction.ofOpcode? opcode = some instruction →
          instruction.registers <+: [opcode.x, opcode.y] := by
  intro after
  have sound : Sound config after := ((Reachable.built built).afterAll requests).sound
  refine ⟨sound.pc_le, ?_, sound.returns_mem, sound.config_eq, Routine.perform_apply sound, ?_⟩
  · rw [← after.stack.depth_eq]
    exact sound.depth_le
  · intro opcode
    rw [opcode.nibble_one, opcode.nibble_two]
    exact ⟨Register.ofNat?_val _, Register.ofNat?_val _,
      fun _ => Instruction.registers_of_ofOpcode?⟩

set_option maxRecDepth 8000 in
theorem safe_afterAll_of_jump_past_memory :
    ∃ machine, build .standard .zeroKeyed = .ok machine ∧
      let after := machine.afterAll
        [.load [0x60, 0xFF, 0x22, 0x04, 0xBF, 0xFF] 0x200, .cycle, .frame 3, .setKey 16 true]
      after.pc = 0x10FE ∧ after.stack.returns = [0x204] ∧ after.pc.toNat ≤ 0x10FE ∧
        (∀ address ∈ after.stack.returns, 0x002 ≤ address.toNat ∧ address.toNat ≤ 0x1000) ∧
        ∀ request, Routine.perform request after = some (after.perform request) := by
  have built := build_standard .zeroKeyed
  refine ⟨_, built, ?_⟩
  have safe := safe_afterAll built
    [.load [0x60, 0xFF, 0x22, 0x04, 0xBF, 0xFF] 0x200, .cycle, .frame 3, .setKey 16 true]
  rcases safe with ⟨pc_le, _, returns_mem, _, met, _⟩
  exact ⟨by decide +kernel, by decide +kernel, pc_le, returns_mem, met⟩

end Machine

end Chip8
