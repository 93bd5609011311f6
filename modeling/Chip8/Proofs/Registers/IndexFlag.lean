import Mathlib.Control.Monad.Basic
import Chip8.Proofs.Machine.Cycles
import Chip8.Proofs.Runs.Acts

/-!
# The flag of the index register

A machine may be configured to flag an addition to the index register that runs past memory. The index
register is a sixteen-bit word, so a sum can also run past the end of the words and come back to the
start of memory. It is the index register after the addition that decides on the flag: a sum is flagged
when it lies past memory and is still a word, and a sum that wraps around is not.

No single instruction puts the index register far past memory, but a loop of additions does. `Adding`
describes the machine at the head of such a loop, and `Adding.frames` says how far the loop gets.
-/

namespace Chip8.Machine

variable {machine : Machine} {x : Register} {head : Address}

/-! ## One addition -/

theorem toNat_index_addToIndex (machine : Machine) (x : Register) :
    (machine.addToIndex x).registers.index.toNat =
      (machine.registers.index.toNat + (machine.v x).toNat) % 0x10000 := by
  have moved : (machine.addToIndex x).registers.index =
      machine.registers.index + (machine.v x).toUInt16 := by
    simp only [addToIndex]
    split <;> rfl
  rw [moved, UInt16.toNat_add, UInt8.toNat_toUInt16]

/-- Only the flag register can change, and only where the configuration asks for the flag. -/
theorem v_addToIndex_of_silent (silent : machine.config.flagsIndexOverflow = false)
    (other : Register) : (machine.addToIndex x).v other = machine.v other := by
  simp only [addToIndex, silent, v, Registers.get, Bool.false_eq_true, if_false]

theorem v_addToIndex_of_ne {other : Register} (different : other ≠ Register.flag) :
    (machine.addToIndex x).v other = machine.v other := by
  simp only [addToIndex, v]
  split
  next => rw [Registers.get_setFlag, if_neg different.symm]; rfl
  next => rfl

/-- The flag is that of the sum which is left in the index register. -/
theorem flag_addToIndex (flags : machine.config.flagsIndexOverflow = true) :
    (machine.addToIndex x).v .flag =
      if 0x0FFF < machine.registers.index.toNat + (machine.v x).toNat ∧
        machine.registers.index.toNat + (machine.v x).toNat < 0x10000 then 1 else 0 := by
  have wide := machine.registers.index.toNat_lt
  have narrow := (machine.v x).toNat_lt
  -- A sum that wraps around is left with less than a byte, far below the end of memory.
  have past : Memory.size ≤ (machine.registers.index + (machine.v x).toUInt16).toNat ↔
      0x0FFF < machine.registers.index.toNat + (machine.v x).toNat ∧
        machine.registers.index.toNat + (machine.v x).toNat < 0x10000 := by
    rw [UInt16.toNat_add, UInt8.toNat_toUInt16]
    simp only [Memory.size]
    omega
  have flagged : (machine.addToIndex x).v .flag = (decide (Memory.size ≤
      (machine.registers.index + (machine.v x).toUInt16).toNat)).toUInt8 := by
    simp only [addToIndex, flags, if_true]
    rw [v, Registers.get_setFlag, if_pos rfl]
  rw [flagged, decide_eq_decide.mpr past]
  split
  next carried => rw [decide_eq_true carried]; rfl
  next under => rw [decide_eq_false under]; rfl

theorem cycle_of_addToIndex (there : machine.memory.WordAt machine.pc.toNat (.ofByte 0xF x 0x1E)) :
    machine.cycle.result = .ok .executed ∧
      machine.cycle.machine = (machine.fetched (.ofByte 0xF x 0x1E)).addToIndex x :=
  cycle_of_word (.addToIndex x) there rfl

theorem flag_of_cycle (there : machine.memory.WordAt machine.pc.toNat (.ofByte 0xF x 0x1E))
    (flags : machine.config.flagsIndexOverflow = true) :
    machine.cycle.machine.v .flag =
      if 0x0FFF < machine.registers.index.toNat + (machine.v x).toNat ∧
        machine.registers.index.toNat + (machine.v x).toNat < 0x10000 then 1 else 0 := by
  rw [(cycle_of_addToIndex there).2]
  exact flag_addToIndex flags

/-! ## A loop of additions -/

/-- A machine at the head of a loop that adds a register to the index register. -/
structure Adding (machine : Machine) (head : Address) (x : Register) : Prop where
  pc_eq : machine.pc = head.toWord
  adds : machine.memory.WordAt head.val (.ofByte 0xF x 0x1E)
  back : machine.memory.WordAt (head.val + 2) (.ofAddress 0x1 head)

theorem Adding.frame (adding : Adding machine head x) (apart : x ≠ .flag) :
    let after := (machine.perform (.frame 2)).machine
    Adding after head x ∧ after.config = machine.config ∧ after.v x = machine.v x ∧
      after.registers.index.toNat =
        (machine.registers.index.toNat + (machine.v x).toNat) % 0x10000 := by
  have place : machine.pc.toNat = head.val := by rw [adding.pc_eq, Address.toNat_toWord]
  have there : machine.memory.WordAt machine.pc.toNat (.ofByte 0xF x 0x1E) := by
    rw [place]
    exact adding.adds
  rcases cycle_of_addToIndex there with ⟨added, between_eq⟩
  have next : machine.cycle.machine.pc.toNat = head.val + 2 := by
    rw [between_eq, ← place]
    exact (toNat_pc_fetched (Memory.opcodeAt_eq_ok_iff_wordAt.mpr there)).1
  have behind : machine.cycle.machine.memory.WordAt machine.cycle.machine.pc.toNat
      (.ofAddress 0x1 head) := by
    rw [next, between_eq]
    exact adding.back
  rcases cycle_of_word (.jump head) behind rfl with ⟨jumped, last_eq⟩
  have after_eq : (machine.perform (.frame 2)).machine =
      machine.cycle.machine.cycle.machine.tick.machine := by
    simp only [perform, Reply.machine_map, runFrame_succ, added, jumped, runFrame_zero]
  intro after
  rw [show after = _ from after_eq, last_eq, between_eq]
  refine ⟨⟨rfl, adding.adds, adding.back⟩, rfl, ?_, ?_⟩
  · exact v_addToIndex_of_ne apart
  · exact toNat_index_addToIndex _ x

/-- Each time around the loop adds the register once more. -/
theorem Adding.frames (adding : Adding machine head x) (apart : x ≠ .flag) (count : Nat) :
    let after := machine.afterAll (List.replicate count (.frame 2))
    Adding after head x ∧ after.config = machine.config ∧ after.v x = machine.v x ∧
      after.registers.index.toNat =
        (machine.registers.index.toNat + count * (machine.v x).toNat) % 0x10000 := by
  induction count generalizing machine with
  | zero =>
      have word := Nat.mod_eq_of_lt machine.registers.index.toNat_lt
      rw [Nat.zero_mul, Nat.add_zero]
      exact ⟨adding, rfl, rfl, word.symm⟩
  | succ count ih =>
      rcases adding.frame apart with ⟨again, config, operand, index⟩
      rcases ih again with ⟨later, configs, operands, sum⟩
      rw [operand, index, Nat.mod_add_mod, Nat.add_assoc, Nat.add_comm (machine.v x).toNat,
        ← Nat.succ_mul] at sum
      exact ⟨later, configs.trans config, operands.trans operand, sum⟩

/-! ## The flag -/

/-- A cycle that adds to the index register leaves the sum modulo the sixteen-bit words in it. Where
the configuration asks for the flag, it is one when the sum lies past memory and does not wrap around,
and zero otherwise; no other general register changes, and none at all where it does not. -/
theorem index_flag_follows_wrapped_sum
    (there : machine.memory.WordAt machine.pc.toNat (.ofByte 0xF x 0x1E)) :
    let after := machine.cycle.machine
    let sum := machine.registers.index.toNat + (machine.v x).toNat
    machine.cycle.result = .ok .executed ∧ after.registers.index.toNat = sum % 0x10000 ∧
      (machine.config.flagsIndexOverflow = true →
        after.v .flag = (if 0x0FFF < sum ∧ sum < 0x10000 then 1 else 0) ∧
          ∀ other ≠ Register.flag, after.v other = machine.v other) ∧
      (machine.config.flagsIndexOverflow = false → ∀ other, after.v other = machine.v other) := by
  intro after sum
  rcases cycle_of_addToIndex there with ⟨executed, after_eq⟩
  have moved : after.registers.index.toNat = sum % 0x10000 := by
    rw [show after = _ from after_eq]
    exact toNat_index_addToIndex _ x
  refine ⟨executed, moved, ?_, ?_⟩
  · intro flags
    refine ⟨flag_of_cycle there flags, ?_⟩
    intro other different
    rw [show after = _ from after_eq]
    exact v_addToIndex_of_ne different
  · intro silent other
    rw [show after = _ from after_eq]
    exact v_addToIndex_of_silent silent other

theorem index_flag_follows_wrapped_sum_of_flag_operand :
    ∃ start : Machine, build { flagsIndexOverflow := true } .zeroKeyed = .ok start ∧
      let program := [0xAF, 0xFF, 0x6F, 0x02, 0xFF, 0x1E]
      let machine := start.afterAll [.load program 0x200, .frame 2]
      machine.memory.WordAt machine.pc.toNat (.ofByte 0xF Register.flag 0x1E) ∧
        machine.registers.index.toNat = 0x0FFF ∧ machine.v .flag = 2 ∧
        machine.cycle.machine.registers.index.toNat = 0x1001 ∧
        machine.cycle.machine.v .flag = 1 := by
  refine ⟨_, build_eq_ok_iff.mpr ⟨rfl, rfl⟩, ?_⟩
  intro program machine
  have seen : (machine.memory.byte? machine.pc.toNat = some 0xFF ∧
      machine.memory.byte? (machine.pc.toNat + 1) = some 0x1E) ∧
      machine.config.flagsIndexOverflow = true ∧ machine.registers.index.toNat = 0x0FFF ∧
      machine.v .flag = 2 := by
    decide +kernel
  rcases seen with ⟨⟨highAt, lowAt⟩, flags, index, operand⟩
  have there : machine.memory.WordAt machine.pc.toNat (.ofByte 0xF Register.flag 0x1E) :=
    ⟨0xFF, 0x1E, highAt, lowAt, rfl⟩
  rcases index_flag_follows_wrapped_sum there with ⟨_, moved, flagged, _⟩
  have flag := (flagged flags).1
  rw [index, operand] at moved flag
  exact ⟨there, index, operand, moved, flag⟩

/-- After 240 additions of the greatest byte to the greatest address one more wraps around. The sum
lies past memory, and the flag says that it does not. -/
theorem wrapping_sum_unflagged :
    ∃ start : Machine, build { flagsIndexOverflow := true } .zeroKeyed = .ok start ∧
      let program := [0xAF, 0xFF, 0x60, 0xFF, 0xF0, 0x1E, 0x12, 0x04]
      let machine :=
        start.afterAll ([.load program 0x200, .frame 2] ++ List.replicate 240 (.frame 2))
      machine.config.flagsIndexOverflow = true ∧
        machine.memory.WordAt machine.pc.toNat (.ofByte 0xF Register.zero 0x1E) ∧
        machine.registers.index.toNat + (machine.v .zero).toNat = 0x1000E ∧
        machine.cycle.result = .ok .executed ∧ machine.cycle.machine.v .flag = 0 := by
  refine ⟨_, build_eq_ok_iff.mpr ⟨rfl, rfl⟩, ?_⟩
  intro program
  rw [afterAll_append]
  generalize looping : afterAll _ [.load program 0x200, .frame 2] = machine
  have seen : machine.pc = 0x204 ∧
      (machine.memory.byte? 0x204 = some 0xF0 ∧ machine.memory.byte? 0x205 = some 0x1E) ∧
      (machine.memory.byte? 0x206 = some 0x12 ∧ machine.memory.byte? 0x207 = some 0x04) ∧
      machine.config.flagsIndexOverflow = true ∧ machine.registers.index.toNat = 0x0FFF ∧
      machine.v .zero = 0xFF := by
    subst looping
    decide +kernel
  rcases seen with ⟨pc, ⟨addHigh, addLow⟩, ⟨backHigh, backLow⟩, flags, index, operand⟩
  have adding : Adding machine 0x204 .zero :=
    ⟨pc, ⟨0xF0, 0x1E, addHigh, addLow, rfl⟩, ⟨0x12, 0x04, backHigh, backLow, rfl⟩⟩
  rcases adding.frames (by decide) 240 with ⟨last, config, lastOperand, lastIndex⟩
  generalize machine.afterAll (List.replicate 240 (.frame 2)) = final at *
  rw [index, operand] at lastIndex
  have there : final.memory.WordAt final.pc.toNat (.ofByte 0xF Register.zero 0x1E) := by
    rw [last.pc_eq]
    exact last.adds
  have flagged : final.config.flagsIndexOverflow = true := by
    rw [config]
    exact flags
  have sum : final.registers.index.toNat + (final.v .zero).toNat = 0x1000E := by
    rw [lastIndex, lastOperand, operand]
    rfl
  rcases cycle_of_addToIndex there with ⟨executed, after_eq⟩
  refine ⟨flagged, there, sum, executed, ?_⟩
  rw [flag_of_cycle there flagged, sum]
  rfl

end Chip8.Machine
